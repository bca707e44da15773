import MoomooMcp.CriticalSection
import MoomooMcp.Machine
import MoomooMcp.TradingControls

namespace MoomooMcp.Gateway

open TradingControls CriticalSection OrderErrors

abbrev Tid := ℕ

inductive TradingMode
  | readOnly
  | simulate
  | real
  deriving DecidableEq, Repr

/-- What the service was started with. -/
structure Config where
  mode : TradingMode
  hasTradeCredential : Bool
  paper : Bool
  controls : Bool

/-- Which deployments lock the gateway whenever no write needs it unlocked. -/
def Config.locksGatewayAtRest (cfg : Config) : Bool :=
  cfg.mode = .readOnly || (cfg.mode = .real && cfg.hasTradeCredential)

inductive Operation
  | placeOrder
  | placeComboOrder
  | modifyOrder (op : ModifyOp)
  | cancelOrder
  deriving DecidableEq, Repr

def ModifyOp.text : ModifyOp → String
  | .normal => "NORMAL"
  | .cancel => "CANCEL"
  | .disable => "DISABLE"
  | .enable => "ENABLE"
  | .delete => "DELETE"

def Operation.text : Operation → String
  | .placeOrder => "place_order"
  | .placeComboOrder => "place_combo_order"
  | .modifyOrder op => "modify_order (" ++ ModifyOp.text op ++ ")"
  | .cancelOrder => "cancel_order"

def Operation.addsExposure : Operation → Bool
  | .placeOrder | .placeComboOrder => true
  | .modifyOrder op => op = .normal || op = .enable
  | .cancelOrder => false

/-- A REAL mutation and the account it was resolved to. -/
structure Write where
  operation : Operation
  account : Account

/-- A SIMULATE mutation of the paper executor. -/
structure PaperWrite where
  kind : Kind
  account : Account

structure PauseRequest where
  environment : String
  paused : Bool
  operatorId : String
  reason : String
  account : String

/-- How a gateway request ends. One that raised may have been issued or not. -/
inductive Reply
  | ok
  | refused (data : String)
  | raised (message : String) (issued : Bool)

def Reply.issued : Reply → Bool
  | .ok | .refused _ => true
  | .raised _ issued => issued

/-- The error of a lock or unlock request. -/
def Reply.error (request : String) : Reply → Option String
  | .ok => none
  | .refused data => some (request ++ " failed: " ++ data)
  | .raised message _ => some message

/-- Whether the service is willing to add exposure. -/
structure Execution where
  haltedSince : Option String
  lastLockError : Option String

namespace Execution

def armed : Execution := ⟨none, none⟩

def halted (x : Execution) : Bool := x.haltedSince.isSome

/-- A just-in-time relock failed: halt, keeping any original start time. -/
def recordRelockFailure (x : Execution) (now error : String) : Execution :=
  ⟨some (x.haltedSince.getD now), some error⟩

/-- Apply an explicit `lock_trade` outcome. -/
def recordLockResult (x : Execution) : Option String → Execution
  | some error => { x with lastLockError := some error }
  | none => armed

end Execution

/-- The gateway's side of the service. `window` says that an unlock was issued for a
write after the last lock that was answered OK, and `owed` that a reconnect left its lock
to the thread inside. Neither is read by the code. -/
structure Shared where
  db : Database
  store : Store
  execution : Execution
  window : Bool
  owed : Bool

abbrev Result := Except Exc Unit

/-- Where a thread is. `connected` is a thread of the SDK after it connected or reconnected. -/
inductive Phase
  | idle
  | opening (w : Write)
  | queued (w : Write)
  | assessing (w : Write)
  | admitting (w : Write)
  | unlocking (w : Write)
  | dispatching (w : Write)
  | marked (w : Write)
  | calling (w : Write)
  | relocking (w : Write) (result : Result)
  | failing (w : Write) (result : Result) (error : String)
  | leaving (w : Write) (result : Result)
  | locking
  | recording (error : Option String)
  | locked (result : Result)
  | pausing (r : PauseRequest)
  | suspending (r : PauseRequest)
  | suspended (r : PauseRequest) (result : Except Exc Bool)
  | connected (reconnecting : Bool)
  | enforcing
  | enforced
  | submitted (w : PaperWrite)
  | preparing (w : PaperWrite)
  | marking (w : PaperWrite)
  | sending (w : PaperWrite)
  | requesting (w : PaperWrite)
  | closing (w : PaperWrite) (result : Result)
  | done (result : Result)

namespace Phase

def resting : Phase → Bool
  | .idle | .done _ => true
  | _ => false

/-- Inside the just-in-time lock. -/
def inJit : Phase → Bool
  | .assessing _ | .admitting _ | .unlocking _ | .dispatching _ | .marked _ | .calling _ | .relocking _ _
  | .failing _ _ _ | .leaving _ _ | .locking | .recording _ | .locked _ | .pausing _ | .suspending _
  | .suspended _ _ | .enforcing | .enforced => true
  | _ => false

/-- Inside the lock of the paper executor, which the operator takes only where there is one. -/
def inPaper (cfg : Config) : Phase → Bool
  | .suspending _ | .suspended _ _ => cfg.paper
  | .preparing _ | .marking _ | .sending _ | .requesting _ | .closing _ _ => true
  | _ => false

end Phase

/-- What a thread meets on its next step: the outcome of a check or of a request
outside this model, and the readings of a clock. -/
inductive Input
  | write (w : Write)
  | paper (w : PaperWrite)
  | lockTrade
  | setPaused (r : PauseRequest)
  | connect (reconnecting : Bool)
  | proceed (failure : Option Exc)
  | check (fault : Bool)
  | start (refused : Option String)
  | reply (r : Reply) (unreadable : Option String)
  | record (now : String)
  | commit (fault readFault : Bool) (now : ℚ)
  | leave

def haltError (operation : String) (x : Execution) : Exc :=
  ⟨.tradingPolicy, operation ++ " is refused: order execution is halted. A relock after " ++
    "an earlier write failed at " ++ x.haltedSince.getD "None" ++ " (" ++ x.lastLockError.getD "None" ++ "), " ++
    "so the gateway may still be unlocked. Call lock_trade to lock the gateway and clear the halt; it is the " ++
    "only way to clear it. Cancellations and SIMULATE writes remain permitted while halted.", false⟩

/-- Refuse a REAL write while the service is halted. -/
def checkExecutionHalt (operation : String) (x : Execution) : Except Exc Unit :=
  if x.halted then .error (haltError operation x) else .ok ()

def modeError (operation : String) : Exc :=
  ⟨.tradingPolicy, operation ++ " is not permitted by the configured trading mode", false⟩

def unlockError (operation error : String) : Exc :=
  ⟨.orderNotSent, notSentMessage operation ("The gateway refused the just-in-time unlock: " ++ error), false⟩

def refused (operation : String) (e : Exc) : Result := .error (notSent operation false false e)

/-- What the answer to an SDK write says. -/
def classify (operation : String) (r : Reply) (unreadable : Option String) : Result :=
  match r, unreadable with
  | .raised message _, _ => .error ⟨.orderOutcomeUnknown, outcomeUnknownMessage operation message, false⟩
  | .refused data, _ => .error ⟨.orderOutcomeUnknown, outcomeUnknownMessage operation data, false⟩
  | .ok, some reason => .error ⟨.orderReceiptUnreadable, receiptUnreadableMessage operation reason, false⟩
  | .ok, none => .ok ()

/-- The write's own outcome, with the lock failure appended where it failed itself. -/
def relockResult (result : Result) (error : String) : Result :=
  match result with
  | .ok () => .ok ()
  | .error failure => .error (withRelockError failure error)

/-- Where a write goes once nothing more will be sent for it. -/
def afterWrite (cfg : Config) (w : Write) (result : Result) : Phase :=
  if cfg.hasTradeCredential then .relocking w result else .leaving w result

section Steps

variable (cfg : Config) (sh : Shared)

/-- Everything a REAL write does before it queues: the mode, its validation and
the early look at the halt. -/
def open_ (w : Write) (failure : Option Exc) : Phase :=
  if cfg.mode ≠ .real then .done (refused w.operation.text (modeError w.operation.text))
  else
    match failure with
    | some e => .done (refused w.operation.text e)
    | none =>
        if w.operation.addsExposure then
          match checkExecutionHalt w.operation.text sh.execution with
          | .error e => .done (refused w.operation.text e)
          | .ok () => .queued w
        else .queued w

/-- The authoritative checks of new exposure, inside the lock. -/
def assess (w : Write) (fault : Bool) : Shared × Phase :=
  if w.operation.addsExposure then
    match checkExecutionHalt w.operation.text sh.execution with
    | .error e => (sh, .leaving w (refused w.operation.text e))
    | .ok () =>
        if cfg.controls then
          match checkNewRisk sh.store sh.db fault .real w.account with
          | (.error e, st) => ({ sh with store := st }, .leaving w (refused w.operation.text e))
          | (.ok (), st) => ({ sh with store := st }, .admitting w)
        else (sh, .admitting w)
  else (sh, .admitting w)

def unlock (w : Write) (r : Reply) : Shared × Phase :=
  ({ sh with window := sh.window || r.issued },
    match r.error "unlock_trade" with
    | none => .dispatching w
    | some error => .leaving w (.error (unlockError w.operation.text error)))

/-- A call of `_lock_gateway`. -/
def lockGateway (r : Reply) : Shared × Option String :=
  match r.error "lock_trade" with
  | none => ({ sh with window := false, owed := false }, none)
  | some error => ({ sh with owed := false }, some error)

def relock (w : Write) (result : Result) (r : Reply) : Shared × Phase :=
  match lockGateway sh r with
  | (sh', none) => (sh', .leaving w result)
  | (sh', some error) => (sh', .failing w result error)

def lockError (error : String) : Exc := ⟨.runtime, error, false⟩

def paperOperation (w : PaperWrite) : String :=
  "paper " ++ match w.kind with
    | .place => "PLACE"
    | .placeCombo => "PLACE_COMBO"
    | .modify => "MODIFY"
    | .cancel => "CANCEL"

def submit (w : PaperWrite) (failure : Option Exc) : Phase :=
  if cfg.mode = .readOnly ∨ cfg.paper = false then .done (refused (paperOperation w) (modeError (paperOperation w)))
  else
    match failure with
    | some e => .done (refused (paperOperation w) e)
    | none => .preparing w

def paperRefused (w : PaperWrite) (e : Exc) : Phase := .closing w (.error (notSent (paperOperation w) true false e))

/-- The operator's gate on the way of a paper write. -/
def gate (w : PaperWrite) (fault : Bool) : Shared × Phase :=
  if w.kind ≠ .cancel ∧ cfg.controls then
    match checkNewRisk sh.store sh.db fault .simulate w.account with
    | (.error e, st) => ({ sh with store := st }, paperRefused w e)
    | (.ok (), st) => ({ sh with store := st }, .marking w)
  else (sh, .marking w)

def suspend (r : PauseRequest) (fault readFault : Bool) (now : ℚ) : Shared × Phase :=
  match setPaused sh.store sh.db fault readFault now r.environment r.paused r.operatorId r.reason r.account with
  | (result, st, db) => ({ sh with store := st, db := db }, .suspended r result)

def controlsMissing : Exc := ⟨.value, "Durable trading controls are not configured", false⟩

/-- One step of a thread. `free` says whether the just-in-time lock is free, which only
a thread of the SDK looks at: it skips its lock where it would have to wait. -/
def act (free : Bool) : Phase → Input → Option (Shared × Phase)
  | .opening w, .proceed failure => some (sh, open_ cfg sh w failure)
  | .queued w, .proceed failure =>
      some (sh, match failure with
        | some e => .done (refused w.operation.text e)
        | none => .assessing w)
  | .assessing w, .check fault => some (assess cfg sh w fault)
  | .admitting w, .proceed failure =>
      some (sh, match failure with
        | some e => .leaving w (refused w.operation.text e)
        | none => if cfg.hasTradeCredential then .unlocking w else .dispatching w)
  | .unlocking w, .reply r _ => some (unlock sh w r)
  | .dispatching w, .proceed failure =>
      some (sh, match failure with
        | some e => afterWrite cfg w (.error (notSent "REAL journal dispatch" true false e))
        | none => .marked w)
  | .marked w, .start none => some (sh, .calling w)
  | .marked w, .start (some message) =>
      some (sh, afterWrite cfg w (classify w.operation.text (.raised message false) none))
  | .calling w, .reply r unreadable => some (sh, afterWrite cfg w (classify w.operation.text r unreadable))
  | .relocking w result, .reply r _ => some (relock sh w result r)
  | .failing w result error, .record now =>
      some ({ sh with execution := sh.execution.recordRelockFailure now error }, .leaving w (relockResult result error))
  | .leaving _ result, .leave => some (sh, .done result)
  | .locking, .reply r _ => some ((lockGateway sh r).1, .recording (lockGateway sh r).2)
  | .recording error, .record _ =>
      some ({ sh with execution := sh.execution.recordLockResult error },
        .locked (match error with
          | none => .ok ()
          | some e => .error (lockError e)))
  | .locked result, .leave => some (sh, .done result)
  | .pausing r, .proceed none => some (sh, .suspending r)
  | .suspending r, .commit fault readFault now => some (suspend sh r fault readFault now)
  | .suspended _ result, .leave => some (sh, .done (result.map (fun _ => ())))
  | .connected reconnecting, .proceed none =>
      some (if free then (sh, .enforcing) else ({ sh with owed := sh.owed || reconnecting }, .done (.ok ())))
  | .enforcing, .reply r _ => some ((lockGateway sh r).1, .enforced)
  | .enforced, .leave => some (sh, .done (.ok ()))
  | .submitted w, .proceed failure => some (sh, submit cfg w failure)
  | .preparing w, .proceed (some e) => some (sh, paperRefused w e)
  | .preparing w, .check fault => some (gate cfg sh w fault)
  | .marking w, .proceed failure =>
      some (sh, match failure with
        | some e => paperRefused w e
        | none => .sending w)
  | .sending w, .start none => some (sh, .requesting w)
  | .sending w, .start (some message) =>
      some (sh, .closing w (classify (paperOperation w) (.raised message false) none))
  | .requesting w, .reply r unreadable => some (sh, .closing w (classify (paperOperation w) r unreadable))
  | .closing _ result, .leave => some (sh, .done result)
  | ph, .write w => if ph.resting then some (sh, .opening w) else none
  | ph, .paper w => if ph.resting then some (sh, .submitted w) else none
  | ph, .lockTrade => if ph.resting then some (sh, .locking) else none
  | ph, .setPaused r =>
      if ph.resting then some (sh, if cfg.controls then .pausing r else .done (.error controlsMissing)) else none
  | ph, .connect reconnecting =>
      if ph.resting then some (sh, if cfg.locksGatewayAtRest then .connected reconnecting else .done (.ok ()))
      else none
  | _, _ => none

end Steps

/-- The service and the threads that use it. -/
structure Sys where
  shared : Shared
  jit : Option Tid
  paperLock : Option Tid
  threads : Tid → Phase

inductive Action
  | thread (t : Tid) (i : Input)
  | restart

/-- A process that has just started on what the controls kept. -/
def started (db : Database) : Sys := ⟨⟨db, .opened, .armed, false, false⟩, none, none, fun _ => .idle⟩

def initial : Sys := started .initial

def threadStep (cfg : Config) (s : Sys) (t : Tid) (i : Input) : Option Sys :=
  match act cfg s.shared s.jit.isNone (s.threads t) i with
  | none => none
  | some (sh, ph) =>
      match claim Phase.inJit s.jit t (s.threads t) ph, claim (Phase.inPaper cfg) s.paperLock t (s.threads t) ph with
      | some jit, some paperLock => some ⟨sh, jit, paperLock, Function.update s.threads t ph⟩
      | _, _ => none

def step (cfg : Config) (s : Sys) : Action → Option Sys
  | .thread t i => threadStep cfg s t i
  | .restart => some (started s.shared.db)

end MoomooMcp.Gateway
