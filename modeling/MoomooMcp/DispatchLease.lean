import Mathlib.Data.Finset.Basic
import MoomooMcp.RequestPools

namespace MoomooMcp.BrokerDispatch

open RateLimit

/-- Transfer of the cleanup of a bundle to a worker. -/
structure Lease where
  slots : List (PoolKey × ℕ)
  closed : Bool
  cancelled : Bool
  protectedKeys : Finset PoolKey

namespace Lease

def empty : Lease := ⟨[], false, false, ∅⟩

/-- Whether the lease lets a call start. A call that no pool counts has no key. -/
def permits (l : Lease) (key : Option PoolKey) : Bool := !l.cancelled || key.any (fun k => k ∈ l.protectedKeys)

/-- The reservations of the bundle by their pool. -/
def lookup (l : Lease) (k : PoolKey) : Option ℕ := List.lookup k l.slots

end Lease

inductive WriteOperation
  | placeOrder
  | placeComboOrder
  | modifyOrder
  deriving DecidableEq

def WriteOperation.text : WriteOperation → String
  | .placeOrder => "place_order"
  | .placeComboOrder => "place_combo_order"
  | .modifyOrder => "modify_order"

/-- An order mutation. `jit` says that the gateway is unlocked for it and locked again. -/
structure Write where
  operation : WriteOperation
  account : ℤ
  jit : Bool

namespace Write

/-- What a mutation reserves before it is protected. -/
def requests (w : Write) : List QuotaRequest :=
  ⟨w.operation.text, some w.account, 1⟩ :: if w.jit then [⟨"unlock_trade", none, 2⟩] else []

/-- The calls of a mutation: its unlock, its write and its relock. -/
def calls (w : Write) : List (String × Arguments) :=
  if w.jit then
    [("unlock_trade", ⟨false, false, none⟩), (w.operation.text, ⟨false, false, some w.account⟩),
      ("unlock_trade", ⟨false, false, none⟩)]
  else [(w.operation.text, ⟨false, false, some w.account⟩)]

end Write

/-- Where a mutation is: its permits are reserved, then protected with the calls it has yet to make. -/
inductive Stage
  | reserved
  | guarded (rest : List (String × Arguments))
  | unguarded

/-- A mutation and the pools it called since its permits were reserved, which the code does not keep. -/
structure Mutation where
  write : Write
  wanted : List (PoolKey × ℤ)
  stage : Stage
  sent : List PoolKey

namespace Mutation

def keys (m : Mutation) : Finset PoolKey := (m.wanted.map Prod.fst).toFinset

/-- What a mutation has on the protected set of its lease. -/
def guards (m : Mutation) : Finset PoolKey :=
  match m.stage with
  | .guarded _ => m.keys
  | _ => ∅

end Mutation

/-- A `reserve` context that was entered: what it sees by pool, and what it has to release. -/
structure Frame where
  slots : PoolKey → Option ℕ
  owned : List (PoolKey × ℕ)
  mutation : Option Mutation

def Frame.guards (f : Frame) : Finset PoolKey := (f.mutation.map Mutation.guards).getD ∅

/-- A mutation made a call on a pool. -/
def Mutation.record (k : PoolKey) (m : Mutation) : Mutation :=
  if k ∈ m.keys then
    { m with
      sent := m.sent ++ [k]
      stage := match m.stage with
        | .guarded rest => .guarded rest.tail
        | stage => stage }
  else m

def Frame.record (k : PoolKey) (f : Frame) : Frame := { f with mutation := f.mutation.map (Mutation.record k) }

/-- What a `reserve` context is entered for. -/
inductive Purpose
  | scope
  | mutation (w : Write)
  | call (key : PoolKey)
  | perform (key : PoolKey)

def Purpose.key : Purpose → Option PoolKey
  | .call k | .perform k => some k
  | _ => none

/-- Where a worker is in the dispatcher, and in `service` outside of it. -/
inductive Task
  | service
  | entering (purpose : Purpose) (plan todo : List (PoolKey × ℤ)) (slots : PoolKey → Option ℕ) (owned : List (PoolKey × ℕ))
  | lacking (purpose : Purpose) (plan todo : List (PoolKey × ℤ)) (slots : PoolKey → Option ℕ) (owned : List (PoolKey × ℕ))
      (k : PoolKey) (weight : ℤ)
  | starting (purpose : Option Purpose)
  | releasing (rest : List (PoolKey × ℕ))

inductive Worker
  | absent
  | queued
  | running (task : Task)
  | finishing (rest : List (PoolKey × ℕ))
  | ended

inductive Awaiter
  | acquiring (todo : List (PoolKey × ℤ)) (slots : List (PoolKey × ℕ))
  | failing (rest : List (PoolKey × ℕ))
  | waiting
  | cancelling (rest : List (PoolKey × ℕ))
  | ended

/-- One leased dispatch: its awaiter, its worker and the pools they share with everyone else.
`calls` are the calls that were started, which the code does not keep. -/
structure Sys (β : Type) where
  pools : Pools β
  lease : Lease
  awaiter : Awaiter
  worker : Worker
  stack : List Frame
  calls : List (Option PoolKey)

inductive Action
  | tick (now : ℚ)
  | rival (k : PoolKey) (r : Rival)
  | acquire (ticket : Option ℕ)
  | fail
  | await
  | cancel
  | start
  | work
  | reserve (requests : List QuotaRequest)
  | call (operation : String) (args : Arguments)
  | mutate (w : Write)
  | protectMutation
  | perform
  | skip
  | unprotect
  | leave
  | finish

namespace Sys

variable {β : Type} [InMemoryBucket β]

/-- `run_async` begins, and fails at once where a request is invalid. -/
def init (policies : PoolKey → RateLimitPolicy) (clock : ℚ) (requests : List QuotaRequest) : Sys β where
  pools := .init policies clock
  lease := .empty
  awaiter := match plan requests with
    | .ok todo => .acquiring todo []
    | .error _ => .failing []
  worker := .absent
  stack := []
  calls := []

/-- What the service code sees as its reservations. -/
def slots (s : Sys β) : PoolKey → Option ℕ :=
  match s.stack with
  | f :: _ => f.slots
  | [] => s.lease.lookup

/-- The awaiter holds the lock of the lease while it cancels, the worker while it finishes. -/
def awaiterLocks (s : Sys β) : Bool :=
  match s.awaiter with
  | .cancelling _ => true
  | _ => false

def workerLocks (s : Sys β) : Bool :=
  match s.worker with
  | .finishing _ => true
  | _ => false

def mutating (s : Sys β) : Bool := s.stack.any (fun f => f.mutation.isSome)

/-- The awaiter's next attempt to acquire from a pool, or its next step of cleanup. -/
def stepAwaiter (s : Sys β) : Action → Option (Sys β)
  | .acquire ticket =>
    match s.awaiter with
    | .acquiring ((k, weight) :: todo) slots =>
      match s.pools.reserve k weight ticket with
      | (some slot, pools) => some { s with pools := pools, awaiter := .acquiring todo (slots ++ [(k, slot)]) }
      | (none, pools) => some { s with pools := pools }
    | _ => none
  | .fail =>
    match s.awaiter with
    | .acquiring (_ :: _) slots => some { s with awaiter := .failing slots }
    | _ => none
  | .await =>
    match s.awaiter with
    | .acquiring [] slots =>
      some { s with lease := { Lease.empty with slots := slots }, awaiter := .waiting, worker := .queued }
    | .failing (x :: rest) => some { s with pools := s.pools.release x, awaiter := .failing rest }
    | .failing [] => some { s with awaiter := .ended }
    | .cancelling (x :: rest) =>
      if x.1 ∈ s.lease.protectedKeys then some { s with awaiter := .cancelling rest }
      else some { s with pools := s.pools.release x, awaiter := .cancelling rest }
    | .cancelling [] => some { s with awaiter := .ended }
    | _ => none
  | .cancel =>
    match s.awaiter with
    | .waiting =>
      if s.workerLocks then none
      else some { s with lease := { s.lease with cancelled := true }, awaiter := .cancelling s.lease.slots }
    | _ => none
  | _ => none

/-- The `reserve` context is entered, and a call goes on to its start. -/
def enter (s : Sys β) (purpose : Purpose) (plan : List (PoolKey × ℤ)) (slots : PoolKey → Option ℕ)
    (owned : List (PoolKey × ℕ)) : Sys β :=
  match purpose with
  | .scope => { s with stack := ⟨slots, owned, none⟩ :: s.stack, worker := .running .service }
  | .mutation w => { s with stack := ⟨slots, owned, some ⟨w, plan, .reserved, []⟩⟩ :: s.stack, worker := .running .service }
  | .call k => { s with stack := ⟨slots, owned, none⟩ :: s.stack, worker := .running (.starting (some (.call k))) }
  | .perform k => { s with stack := ⟨slots, owned, none⟩ :: s.stack, worker := .running (.starting (some (.perform k))) }

/-- Commit a call immediately before it is made, under the lock of the lease. -/
def startCall (s : Sys β) (key : Option PoolKey) : Option (Sys β) :=
  if s.lease.permits key then
    match key with
    | none => some { s with worker := .running .service, calls := s.calls ++ [none] }
    | some k => (s.slots k).map (fun slot =>
      match s.pools.start (k, slot) with
      | (true, pools) =>
        { s with
          pools := pools
          stack := s.stack.map (Frame.record k)
          worker := .running .service
          calls := s.calls ++ [some k] }
      | (false, pools) => { s with pools := pools, worker := .running .service })
  else some { s with worker := .running .service }

/-- The worker's next step inside the dispatcher. -/
def work (s : Sys β) : Option (Sys β) :=
  match s.worker with
  | .running (.entering purpose plan ((k, weight) :: todo) slots owned) =>
    if (slots k).any (fun slot => weight ≤ s.pools.remaining (k, slot)) then
      some { s with worker := .running (.entering purpose plan todo slots owned) }
    else some { s with worker := .running (.lacking purpose plan todo slots owned k weight) }
  | .running (.entering purpose plan [] slots owned) => some (s.enter purpose plan slots owned)
  | .running (.lacking purpose plan todo slots owned k weight) =>
    match s.pools.reserve k weight none with
    | (some slot, pools) =>
      some { s with
        pools := pools
        worker := .running (.entering purpose plan todo (Function.update slots k (some slot)) (owned ++ [(k, slot)])) }
    | (none, pools) => some { s with pools := pools, worker := .running (.releasing owned) }
  | .running (.starting purpose) =>
    if s.awaiterLocks then none else s.startCall (purpose.bind Purpose.key)
  | .running (.releasing (x :: rest)) =>
    some { s with pools := s.pools.release x, worker := .running (.releasing rest) }
  | .running (.releasing []) => some { s with worker := .running .service }
  | .finishing (x :: rest) => some { s with pools := s.pools.release x, worker := .finishing rest }
  | .finishing [] => some { s with worker := .ended }
  | _ => none

/-- The top frame with another stage of its mutation. -/
def restage (s : Sys β) (f : Frame) (m : Mutation) (below : List Frame) (stage : Stage) : Sys β :=
  { s with stack := { f with mutation := some { m with stage := stage } } :: below }

def entering (s : Sys β) (purpose : Purpose) (plan : List (PoolKey × ℤ)) : Sys β :=
  { s with worker := .running (.entering purpose plan plan s.slots []) }

/-- What the service code does next. Code that raises here changes nothing and is no step.
Inside of a mutation no other call uses its pools, and mutations are not nested. -/
def serve (s : Sys β) : Action → Option (Sys β)
  | .reserve requests => (plan requests).toOption.map (s.entering .scope)
  | .call operation args =>
    match callPlan operation args with
    | .ok none => some { s with worker := .running (.starting none) }
    | .ok (some (k, todo)) =>
      if s.stack.all (fun f => f.mutation.all (fun m => k ∉ m.keys)) then some (s.entering (.call k) todo) else none
    | .error _ => none
  | .mutate w => if s.mutating then none else (plan w.requests).toOption.map (s.entering (.mutation w))
  | .protectMutation =>
    match s.stack with
    | f :: below =>
      match f.mutation with
      | some m =>
        match m.stage with
        | .reserved =>
          if s.awaiterLocks || s.lease.cancelled then none
          else some { s.restage f m below (.guarded m.write.calls) with
            lease := { s.lease with protectedKeys := s.lease.protectedKeys ∪ m.keys } }
        | _ => none
      | none => none
    | [] => none
  | .perform =>
    match s.stack with
    | f :: _ =>
      match f.mutation with
      | some m =>
        match m.stage with
        | .guarded ((operation, args) :: _) =>
          match callPlan operation args with
          | .ok (some (k, todo)) => some (s.entering (.perform k) todo)
          | _ => none
        | _ => none
      | none => none
    | [] => none
  | .skip =>
    match s.stack with
    | f :: below =>
      match f.mutation with
      | some m =>
        match m.stage with
        | .guarded (_ :: rest) => some (s.restage f m below (.guarded rest))
        | _ => none
      | none => none
    | [] => none
  | .unprotect =>
    match s.stack with
    | f :: below =>
      match f.mutation with
      | some m =>
        match m.stage with
        | .guarded _ =>
          if s.awaiterLocks then none
          else some { s.restage f m below .unguarded with
            lease := { s.lease with protectedKeys := s.lease.protectedKeys \ m.keys } }
        | _ => none
      | none => none
    | [] => none
  | .leave =>
    match s.stack with
    | f :: below =>
      match f.mutation with
      | some ⟨_, _, .guarded _, _⟩ => none
      | _ => some { s with stack := below, worker := .running (.releasing f.owned) }
    | [] => none
  | .finish =>
    match s.stack with
    | [] =>
      if s.awaiterLocks then none
      else some { s with lease := { s.lease with closed := true }, worker := .finishing s.lease.slots }
    | _ :: _ => none
  | _ => none

def step (s : Sys β) (a : Action) : Option (Sys β) :=
  match a with
  | .tick now => if s.pools.clock ≤ now then some { s with pools := { s.pools with clock := now } } else none
  | .rival k r => (s.pools.rival k r).map (fun pools => { s with pools := pools })
  | .acquire _ | .fail | .await | .cancel => s.stepAwaiter a
  | .start =>
    match s.worker with
    | .queued =>
      if s.awaiterLocks then none
      else if s.lease.closed || s.lease.cancelled then some { s with worker := .ended }
      else some { s with worker := .running .service }
    | _ => none
  | .work => s.work
  | _ =>
    match s.worker with
    | .running .service => s.serve a
    | _ => none

end Sys

end MoomooMcp.BrokerDispatch
