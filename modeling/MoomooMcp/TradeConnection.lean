import MoomooMcp.Machine
import Mathlib.Data.List.Basic

namespace MoomooMcp.TradeConnection

abbrev Ctx := ℕ

/-- Where a connection worker is, with the context it has built. -/
inductive Phase
  | constructing
  | configuring (ctx : Ctx)
  | registering (ctx : Ctx)
  | discarding (ctx : Ctx)
  | watching (ctx : Ctx)
  | publishing (ctx : Ctx)
  | surplus (ctx : Ctx)
  | enforcing (ctx : Ctx)
  | done
  deriving DecidableEq, Repr

/-- The service, with the workers in the order of their starts. A close that has taken
the published context and not closed it yet is among the closers. The contexts that were
constructed, and those on which `close` was called, are for the record. -/
structure Service where
  closed : Bool
  connectFuture : Option ℕ
  tradeCtx : Option Ctx
  workers : List Phase
  closers : List Ctx
  constructed : List Ctx
  released : List Ctx
  deriving DecidableEq, Repr

def Service.initial : Service := ⟨false, none, none, [], [], [], []⟩

/-- How a call to the SDK ends. -/
inductive Outcome
  | constructed (ctx : Ctx)
  | returned
  | raised
  deriving DecidableEq, Repr

inductive Action
  /-- `connect()`; the thread of a new worker may fail to start. -/
  | connect (starts : Bool)
  /-- `close()` up to the end of its locked part. -/
  | close
  /-- The rest of a `close()`. -/
  | release (ctx : Ctx)
  | work (worker : ℕ) (outcome : Outcome)
  deriving DecidableEq, Repr

/-- Whether the future of the last worker has no result yet. -/
def Service.inFlight (s : Service) : Bool :=
  match s.connectFuture with
  | none => false
  | some w => (s.workers[w]?).any (· ≠ .done)

def connect (s : Service) (starts : Bool) : Service :=
  let s := { s with closed := false }
  if s.inFlight || !starts then s
  else { s with workers := s.workers ++ [.constructing], connectFuture := some s.workers.length }

def close (s : Service) : Service :=
  { s with closed := true, connectFuture := none, tradeCtx := none, closers := s.closers ++ s.tradeCtx.toList }

def Service.at (s : Service) (worker : ℕ) (ph : Phase) : Service := { s with workers := s.workers.set worker ph }

/-- Construct the SDK trade context and publish it when it is ready, one call to the SDK
or one locked part at a time. -/
def openTradeContext (s : Service) (w : ℕ) : Phase → Outcome → Option Service
  | .constructing, .constructed ctx =>
      if ctx ∈ s.constructed then none
      else some { s.at w (.configuring ctx) with constructed := s.constructed ++ [ctx] }
  | .constructing, .raised => some (s.at w .done)
  | .configuring ctx, .returned => some (s.at w (.registering ctx))
  -- nothing closes the context when its timeout cannot be set
  | .configuring _, .raised => some (s.at w .done)
  | .registering ctx, .returned => some (s.at w (.watching ctx))
  | .registering ctx, .raised => some (s.at w (.discarding ctx))
  | .discarding ctx, _ => some { s.at w .done with released := s.released ++ [ctx] }
  | .watching ctx, .returned => some (s.at w (.publishing ctx))
  -- nor when its reconnect hook cannot be replaced
  | .watching _, .raised => some (s.at w .done)
  | .publishing ctx, .returned =>
      if s.closed then some (s.at w (.surplus ctx))
      else some { s.at w (.enforcing ctx) with tradeCtx := some ctx }
  | .surplus ctx, _ => some { s.at w .done with released := s.released ++ [ctx] }
  | .enforcing _, _ => some (s.at w .done)
  | _, _ => none

def next (s : Service) : Action → Option Service
  | .connect starts => some (connect s starts)
  | .close => some (close s)
  | .release ctx =>
      if ctx ∈ s.closers then some { s with closers := s.closers.erase ctx, released := s.released ++ [ctx] } else none
  | .work w outcome =>
      match s.workers[w]? with
      | none => none
      | some ph => openTradeContext s w ph outcome

/-- The context that only its worker knows of. -/
def Phase.holds : Phase → Option Ctx
  | .configuring ctx | .registering ctx | .discarding ctx | .watching ctx | .publishing ctx | .surplus ctx => some ctx
  | .constructing | .enforcing _ | .done => none

/-- The contexts that someone will close or use, and those that are closed. -/
def Service.places (s : Service) : List Ctx :=
  s.workers.filterMap Phase.holds ++ s.tradeCtx.toList ++ s.closers ++ s.released

/-- A step that forgets no context: a worker that publishes its own finds none published,
and no call raises between the constructor and the guard of the handlers, nor after it
before the context is published. -/
def Careful (s : Service) (a : Action) (_ : Service) : Prop :=
  match a with
  | .work w .returned => ∀ ctx, s.workers[w]? = some (.publishing ctx) → s.closed = false → s.tradeCtx = none
  | .work w .raised => ∀ ctx, s.workers[w]? ≠ some (.configuring ctx) ∧ s.workers[w]? ≠ some (.watching ctx)
  | _ => True

/-- Every worker has finished and every close has returned. -/
def Service.Settled (s : Service) : Prop := (∀ ph ∈ s.workers, ph = .done) ∧ s.closers = []

/-- No published context gives way to another one. -/
def Kept (s : Service) (_ : Action) (t : Service) : Prop :=
  ∀ ctx ctx', s.tradeCtx = some ctx → t.tradeCtx = some ctx' → ctx' = ctx

end MoomooMcp.TradeConnection
