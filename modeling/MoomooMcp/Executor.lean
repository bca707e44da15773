import Mathlib.Logic.Function.Basic
import MoomooMcp.Accounting
import MoomooMcp.CriticalSection
import MoomooMcp.Machine
import MoomooMcp.Preparation

namespace MoomooMcp.Executor

open ExecutionStore OrderErrors Preparation

abbrev Tid := ℕ

/-- What a caller is told about an operation that has a row. A result that was
observed but could not be stored has no durable disposition. -/
structure Result where
  operationId : OperationId
  state : State
  disposition : Option Disposition
  receipt : Option Receipt := none
  error : Option String := none

/-- An outcome that could not be written, with the identity it was admitted under. -/
structure LateFailure where
  identity : Row
  result : Result

/-- What came back from the SDK write. -/
inductive SdkAnswer
  | raised (message : String)
  | refused (message : String)
  | ok (orderId : Option OrderId) (receipt : Except String Receipt) (serialization : Option String)

def SdkAnswer.retOk : SdkAnswer → Bool
  | .ok _ _ _ => true
  | .raised _ | .refused _ => false

/-- A row as a recovery check reads it, with the checks recorded so far. -/
structure Snapshot where
  row : Row
  recoveryChecks : List Check

structure Conclusion where
  outcome : CheckOutcome
  details : Details
  delay : ℚ
  resolution : Option Resolution := none
  receipt : Option Receipt := none
  facts : Option Facts := none

/-- The program points of a thread. -/
inductive Phase
  | idle
  | validated (c : Request)
  | queued (c : Request)
  | admitting (c : Request)
  | admitted (c : Request) (row : Row)
  | entered (c : Request) (row : Row)
  | prepared (c : Request) (row : Row) (p : Prepared)
  | marked (c : Request) (row : Row) (p : Prepared)
  | calling (c : Request) (row : Row) (p : Prepared)
  | finishing (c : Request) (row : Row) (p : Prepared) (sdk : Option SdkAnswer) (o : Outcome)
  | refusing (c : Request) (row : Row) (e : Exc)
  | done (c : Request) (sdk : Option SdkAnswer) (answer : Except Exc Result)
  | checking (n : Snapshot) (started : ℚ)
  | correlated (n : Snapshot) (started : ℚ) (found : List BrokerOrder)
  | accounting (n : Snapshot) (started : ℚ) (found : List BrokerOrder)
  | concluding (n : Snapshot) (started : ℚ) (k : Conclusion)
  | checked (answer : Except Exc Result)

def Phase.resting : Phase → Bool
  | .idle | .done _ _ _ | .checked _ => true
  | _ => false

/-- The program points inside `with self._admission_lock`. -/
def Phase.inAdmission : Phase → Bool
  | .admitting _ => true
  | _ => false

/-- The program points inside `with self.lock`. -/
def Phase.inLock : Phase → Bool
  | .entered _ _ | .prepared _ _ _ | .marked _ _ _ | .calling _ _ _ | .finishing _ _ _ _ _ | .refusing _ _ _
  | .checking _ _ | .correlated _ _ _ | .accounting _ _ _ | .concluding _ _ _ => true
  | _ => false

/-- The next thing that happens to a thread, with everything its surroundings
decide: the request, the broker's answers, the clock and the failures. -/
inductive Input
  | present (c : Request) (refusal : Option Exc)
  | lookup (access : Option Exc) (fault : Fault)
  | preflight (access : Option Exc) (fault readyFault : Fault)
  | admitOperation (account : Except Exc Account) (uuid : Tag) (access : Option Exc) (fault : Fault)
  | enter (fault : Fault)
  | prepare (orders : Except Exc (List BrokerOrder)) (fault : Fault) (a : Assessment)
  | mark (controls : Option Exc) (readyFault : Fault) (confirm : Option Exc) (fault : Fault)
      (relock : Option String)
  | start (failure : Option String) (relock : Option String)
  | answer (a : SdkAnswer) (relock : Option String)
  | finish (fault lookupFault : Fault)
  | refuse (fault lookupFault : Fault)
  | check (op : OperationId) (fault dueFault : Fault) (due started : ℚ)
  | observe (orders : Except Exc (List BrokerOrder))
  | block (fault : Fault)
  | account (positions : Accounting.PositionQuery)
  | record (completed : ℚ) (stopped : Bool) (fault lookupFault : Fault)

/-- What the threads of one environment share, and the SDK writes started so far. -/
structure Shared where
  journal : Journal
  store : Store
  late : List LateFailure
  starts : List OperationId

def Shared.environment (sh : Shared) : Environment := sh.journal.environment

def operationName (env : Environment) (c : Request) : String :=
  match env, c.kind with
  | .simulate, .place => "paper PLACE"
  | .simulate, .placeCombo => "paper PLACE_COMBO"
  | .simulate, .modify => "paper MODIFY"
  | .simulate, .cancel => "paper CANCEL"
  | .real, .place => "place_order"
  | .real, .placeCombo => "place_combo_order"
  | .real, .modify => "modify_order"
  | .real, .cancel => if c.params.modifyOrderOp = none then "cancel_order" else "modify_order"

/-- The readiness gate of an executor. -/
def ready (sh : Shared) (fault : Fault) : Except Exc Unit × Store :=
  match sh.late with
  | _ :: _ =>
      (.error (storeError (match sh.environment with
        | .simulate => "OUTCOME_NOT_STORED: paper execution blocked; restart and review recovery"
        | .real => "OUTCOME_NOT_STORED: REAL execution blocked; restart with healthy storage")), sh.store)
  | [] => requireReady sh.store sh.journal fault

def canonicalRequest (env : Environment) (account : Account) (c : Request) : Canonical :=
  ⟨env, account, c.kind, c.params⟩

def differs {α : Type} [DecidableEq α] (name : String) (stored proposed : α) : List String :=
  if stored = proposed then [] else [name]

def differingParams (stored proposed : Params) : List String :=
  differs "acc_id" stored.accId proposed.accId ++
  differs "adjust_limit" stored.adjustLimit proposed.adjustLimit ++
  differs "aux_price" stored.auxPrice proposed.auxPrice ++
  differs "code" stored.code proposed.code ++
  differs "combo_legs" stored.comboLegs proposed.comboLegs ++
  differs "modify_order_op" stored.modifyOrderOp proposed.modifyOrderOp ++
  differs "order_id" stored.orderId proposed.orderId ++
  differs "order_type" stored.orderType proposed.orderType ++
  differs "price" stored.price proposed.price ++
  differs "qty" stored.qty proposed.qty ++
  differs "remark" stored.remark proposed.remark ++
  differs "session" stored.session proposed.session ++
  differs "time_in_force" stored.timeInForce proposed.timeInForce ++
  differs "trail_spread" stored.trailSpread proposed.trailSpread ++
  differs "trail_type" stored.trailType proposed.trailType ++
  differs "trail_value" stored.trailValue proposed.trailValue ++
  differs "trd_env" stored.trdEnv proposed.trdEnv ++
  differs "trd_side" stored.trdSide proposed.trdSide

def differingFields (stored proposed : Canonical) : List String :=
  differs "env" stored.env proposed.env ++ differs "account" stored.account proposed.account ++
  differs "op_type" stored.opType proposed.opType ++ differingParams stored.params proposed.params

def rowResult (row : Row) : Result := ⟨row.operationId, row.state, some row.disposition, row.receipt, row.error⟩

def lateFailure (sh : Shared) (op : OperationId) : Option LateFailure :=
  sh.late.find? (fun f => f.result.operationId = op)

/-- A request whose operation already has a row only reads. -/
def retry (sh : Shared) (row : Row) (c : Request) (access : Option Exc) : Except Exc Result :=
  match access with
  | some e => .error e
  | none =>
      let account := if c.account = 0 then row.account else c.account
      match differingFields row.canonical (canonicalRequest sh.environment account c) with
      | [] => .ok ((lateFailure sh row.operationId).elim (rowResult row) LateFailure.result)
      | fields => .error ⟨.executionConflict, "Operation ID conflict: " ++ ", ".intercalate fields, false⟩

/-- The `not_sent` scope around a pre-dispatch part of a mutation. -/
def scope (env : Environment) (c : Request) (admitted identityLookup : Bool) (e : Exc) : Exc :=
  notSent (operationName env c) admitted identityLookup e

/-- The scope around an admission: only the paper executor keeps storage errors apart there. -/
def admissionScope (env : Environment) (c : Request) (e : Exc) : Exc := scope env c false (env = .simulate) e

/-- The scope around the second lookup: the REAL executor has none there. -/
def lookupScope (env : Environment) (c : Request) (e : Exc) : Exc :=
  match env with
  | .simulate => scope env c false true e
  | .real => e

def present (env : Environment) (c : Request) (refusal : Option Exc) : Phase :=
  match refusal with
  | some e => .done c none (.error (scope env c false false e))
  | none => .validated c

/-- The row a presented operation already has, its late failure first. -/
def identity (sh : Shared) (c : Request) (fault : Fault) : Except Exc (Option Row) × Store :=
  match lateFailure sh c.operationId with
  | some f => (.ok (some f.identity), sh.store)
  | none => read sh.store fault (sh.journal.row c.operationId)

def lookup (sh : Shared) (c : Request) (access : Option Exc) (fault : Fault) : Store × Phase :=
  match identity sh c fault with
  | (.error e, st) => (st, .done c none (.error e))
  | (.ok (some row), st) => (st, .done c none (retry sh row c access))
  | (.ok none, st) => (st, .queued c)

/-- The second lookup: the paper executor asks the journal alone. -/
def admittedMeanwhile (sh : Shared) (c : Request) (fault : Fault) : Except Exc (Option Row) × Store :=
  match sh.environment with
  | .simulate => read sh.store fault (sh.journal.row c.operationId)
  | .real => identity sh c fault

/-- Under the admission lock: look again, then refuse a stale epoch and a
blocked journal before any broker discovery. -/
def preflight (sh : Shared) (c : Request) (access : Option Exc) (fault readyFault : Fault) : Store × Phase :=
  match admittedMeanwhile sh c fault with
  | (.error e, st) => (st, .done c none (.error (lookupScope sh.environment c e)))
  | (.ok (some row), st) =>
      (st, .done c none ((retry sh row c access).mapError (lookupScope sh.environment c)))
  | (.ok none, st) =>
      if c.epoch ≠ st.epoch then
        (st, .done c none (.error (admissionScope sh.environment c
          ⟨.executionConflict, "Unknown non-current-epoch token cannot be accounted for; do not refresh it", false⟩)))
      else
        match ready { sh with store := st } readyFault with
        | (.error e, st') => (st', .done c none (.error (admissionScope sh.environment c e)))
        | (.ok (), st') => (st', .admitting c)

def admission (env : Environment) (c : Request) (account : Account) (uuid : Tag) : Admission :=
  ⟨c.operationId, c.epoch, account, c.kind, canonicalRequest env account c, c.params, uuid⟩

def admitOperation (sh : Shared) (c : Request) (account : Except Exc Account) (uuid : Tag) (access : Option Exc)
    (fault : Fault) : Shared × Phase :=
  match account with
  | .error e => (sh, .done c none (.error (admissionScope sh.environment c e)))
  | .ok account =>
      match transact sh.store sh.journal fault
        (fun j => j.admitOperation sh.store.epoch sh.store.reviewed (admission sh.environment c account uuid)) with
      | (.error e, st, j) =>
          ({ sh with store := st, journal := j }, .done c none (.error (admissionScope sh.environment c e)))
      | (.ok (row, false), st, j) =>
          ({ sh with store := st, journal := j },
            .done c none ((retry sh row c access).mapError (lookupScope sh.environment c)))
      | (.ok (row, true), st, j) => ({ sh with store := st, journal := j }, .admitted c row)

/-- The first thing under the execution lock is the readiness gate. -/
def enter (sh : Shared) (c : Request) (row : Row) (fault : Fault) : Store × Phase :=
  match ready sh fault with
  | (.error e, st) =>
      (st, .refusing c row (match sh.environment with
        | .simulate => e
        | .real => scope .real c true false e))
  | (.ok (), st) => (st, .entered c row)

def prepare (sh : Shared) (c : Request) (row : Row) (orders : Except Exc (List BrokerOrder)) (fault : Fault)
    (a : Assessment) : Store × Phase :=
  match Preparation.prepare sh.store sh.journal c row a orders fault with
  | (.error e, st) => (st, .refusing c row e)
  | (.ok p, st) => (st, .prepared c row p)

def mark (sh : Shared) (row : Row) (p : Prepared) (fault : Fault) : Except Exc Unit × Store × Journal :=
  transact sh.store sh.journal fault (fun j => j.markDispatch row.operationId p.merged)

def relocked (failure : Exc) (relock : Option String) : Exc := relock.elim failure (withRelockError failure)

/-- The last checks and the marker of a paper mutation. -/
def markPaper (sh : Shared) (c : Request) (row : Row) (p : Prepared) (controls confirm : Option Exc)
    (fault : Fault) : Shared × Phase :=
  match require controls, require confirm with
  | .error e, _ => (sh, .refusing c row e)
  | .ok _, .error e => (sh, .refusing c row e)
  | .ok _, .ok _ =>
      match mark sh row p fault with
      | (.error e, st, j) => ({ sh with store := st, journal := j }, .refusing c row e)
      | (.ok (), st, j) => ({ sh with store := st, journal := j }, .marked c row p)

/-- `RealExecution.before_dispatch`. -/
def beforeDispatch (sh : Shared) (row : Row) (p : Prepared) (readyFault : Fault)
    (confirm : Option Exc) (fault : Fault) : Except Exc Unit × Store × Journal :=
  let inside (r : Except Exc Unit × Store × Journal) : Except Exc Unit × Store × Journal :=
    (r.1.mapError (notSent "REAL journal dispatch" true false), r.2)
  match ready sh readyFault with
  | (.error e, st) => inside (.error e, st, sh.journal)
  | (.ok (), st) =>
      if p.merged.trdEnv ≠ some .real ∨ p.merged.accId ≠ some row.account then
        inside (.error ⟨.executionConflict, "Dispatch account/environment disagrees with admission", false⟩,
          st, sh.journal)
      else
        match require confirm with
        | .error e => inside (.error e, st, sh.journal)
        | .ok _ => inside (mark { sh with store := st } row p fault)

/-- The dispatch boundary of a REAL mutation up to its marker. A failure from the
unlock on is raised again once the gateway was asked to lock. -/
def markReal (sh : Shared) (c : Request) (row : Row) (p : Prepared) (controls : Option Exc) (readyFault : Fault)
    (confirm : Option Exc) (fault : Fault) (relock : Option String) : Shared × Phase :=
  match require controls with
  | .error e => (sh, .refusing c row e)
  | .ok _ =>
      match beforeDispatch sh row p readyFault confirm fault with
      | (.error e, st, j) => ({ sh with store := st, journal := j }, .refusing c row (relocked e relock))
      | (.ok (), st, j) => ({ sh with store := st, journal := j }, .marked c row p)

def unresolved (error : String) (receipt : Option Receipt) (observed : List OperationId) : Outcome :=
  ⟨.unknownOutcome, .possiblySent, receipt, some error, some .unresolvedOutcome, observed⟩

def unreadable (error : String) (receipt : Option Receipt) (observed : List OperationId) : Outcome :=
  ⟨.acknowledged, .acknowledged, receipt, some error, some .receiptUnreadable, observed⟩

def acknowledged (receipt : Receipt) (observed : List OperationId) : Outcome :=
  ⟨.acknowledged, .acknowledged, some receipt, none, none, observed⟩

def paperOutcome (p : Prepared) : SdkAnswer → Outcome
  | .raised message | .refused message =>
      unresolved ("Outcome is unknown; may have been sent. Do not resend: " ++ message) none []
  | .ok id (.error message) _ | .ok id (.ok _) (some message) =>
      unreadable ("Gateway acknowledged; local conversion failure: " ++ message ++ "; do not resend")
        (some ⟨id, none⟩) p.observed
  | .ok _ (.ok receipt) none => acknowledged receipt p.observed

/-- How the REAL dispatch boundary classifies an SDK write. -/
def dispatched (c : Request) : SdkAnswer → Except Exc Receipt
  | .raised message | .refused message =>
      .error ⟨.orderOutcomeUnknown, outcomeUnknownMessage (operationName .real c) message, false⟩
  | .ok _ (.error message) _ =>
      .error ⟨.orderReceiptUnreadable, receiptUnreadableMessage (operationName .real c) message, false⟩
  | .ok _ (.ok receipt) _ => .ok receipt

/-- The identity an acknowledgement shows even when its receipt cannot be read. -/
def observeAcknowledgement : SdkAnswer → Option Receipt
  | .ok id _ _ => if Accounting.validIdentity id then some ⟨id, none⟩ else none
  | .raised _ | .refused _ => none

def realOutcome (c : Request) (p : Prepared) (a : SdkAnswer) (relock : Option String) : Outcome :=
  match dispatched c a with
  | .error e =>
      let failure := relocked e relock
      if failure.type = .orderReceiptUnreadable then
        unreadable failure.message (observeAcknowledgement a) p.observed
      else unresolved failure.message (observeAcknowledgement a) p.observed
  | .ok receipt =>
      match a with
      | .ok _ _ (some message) =>
          unreadable ("Acknowledged receipt conversion failed: " ++ message ++ "; do not resend")
            (observeAcknowledgement a) p.observed
      | _ => acknowledged receipt p.observed

def sdkOutcome (env : Environment) (c : Request) (p : Prepared) (a : SdkAnswer) (relock : Option String) :
    Outcome :=
  match env with
  | .simulate => paperOutcome p a
  | .real => realOutcome c p a relock

/-- The SDK call starts, or fails before it does; the marker is committed, so
from here on nothing is reported as not sent. -/
def start (sh : Shared) (c : Request) (row : Row) (p : Prepared) (failure relock : Option String) :
    Shared × Phase :=
  match failure with
  | some message => (sh, .finishing c row p none (sdkOutcome sh.environment c p (.raised message) relock))
  | none => ({ sh with starts := sh.starts ++ [row.operationId] }, .calling c row p)

def answer (env : Environment) (c : Request) (row : Row) (p : Prepared) (a : SdkAnswer) (relock : Option String) :
    Phase :=
  .finishing c row p (some a) (sdkOutcome env c p a relock)

def lateResult (op : OperationId) (o : Outcome) (committed : Bool) (e : Exc) : Result where
  operationId := op
  state := o.state
  disposition := if committed then some o.disposition else none
  receipt := o.receipt
  error := some ("Local persistence failure: " ++ e.message ++ "; do not resend")

/-- `_finish`: write the outcome and read it back. What cannot be written is kept
as a late failure. -/
def finish (sh : Shared) (row : Row) (o : Outcome) (fault lookupFault : Fault) : Shared × Result :=
  let keep (st : Store) (j : Journal) (committed : Bool) (e : Exc) : Shared × Result :=
    let result := lateResult row.operationId o committed e
    ({ sh with store := st, journal := j, late := ⟨row, result⟩ :: sh.late }, result)
  match transact sh.store sh.journal fault (fun j => j.outcome row.operationId o) with
  | (.error e, st, j) => keep st j false e
  | (.ok (), st, j) =>
      match read st lookupFault (j.row row.operationId) with
      | (.error e, st') => keep st' j true e
      | (.ok none, st') => keep st' j true ⟨.other, "", false⟩
      | (.ok (some current), st') => ({ sh with store := st', journal := j }, rowResult current)

def refusedOutcome (message : String) : Outcome := ⟨.refused, .notSent, none, some message, none, []⟩

def refusePaper (sh : Shared) (c : Request) (row : Row) (e : Exc) (fault : Fault) : Shared × Phase :=
  match transact sh.store sh.journal fault
    (fun j => j.outcome row.operationId (refusedOutcome ("No order was sent: " ++ e.message))) with
  | (.error e', st, j) =>
      ({ sh with store := st, journal := j }, .done c none (.error (scope .simulate c true false e')))
  | (.ok (), st, j) =>
      ({ sh with store := st, journal := j }, .done c none (.error (scope .simulate c true false e)))

def refusal (c : Request) (e : Exc) : Exc :=
  if e.type = .orderNotSent then { e with admitted := true }
  else ⟨.orderNotSent, notSentMessage (operationName .real c) e.message, true⟩

def refuse (sh : Shared) (c : Request) (row : Row) (e : Exc) (fault lookupFault : Fault) : Shared × Phase :=
  match sh.environment with
  | .simulate => refusePaper sh c row e fault
  | .real => ((finish sh row (refusedOutcome e.message) fault lookupFault).1, .done c none (.error (refusal c e)))

def negativeGaps : List ℚ := [5, 5, 10, 20]

def monitorInterval : ℚ := 60

def checkInterval : ℚ := 30

def defaultDelay (env : Environment) : ℚ :=
  match env with
  | .simulate => 5
  | .real => checkInterval

def outcomeText : CheckOutcome → String
  | .notDispatched => "NOT_DISPATCHED"
  | .found => "FOUND"
  | .targetPending => "TARGET_PENDING"
  | .notFound => "NOT_FOUND"
  | .monitorNotFound => "MONITOR_NOT_FOUND"
  | .identityNotFound => "IDENTITY_NOT_FOUND"
  | .error => "ERROR"

def Snapshot.late (n : Snapshot) : Bool := n.row.recoveryDisposition = some .assumedAbsent

def Snapshot.seen (n : Snapshot) : Prop := ∃ k ∈ n.recoveryChecks, k.details.correlatedOrderSeen = true

instance (n : Snapshot) : Decidable n.seen := by unfold Snapshot.seen; infer_instance

def Snapshot.negatives (n : Snapshot) : ℕ := (n.recoveryChecks.filter (fun k => k.outcome = .notFound)).length

def errorConclusion (env : Environment) (orders : List BrokerOrder) (seen : Bool) (e : Exc) : Conclusion :=
  ⟨.error, ⟨orders, seen, e.message⟩, defaultDelay env, none, none, none⟩

def plainConclusion (outcome : CheckOutcome) (delay : ℚ) (orders : List BrokerOrder)
    (resolution : Option Resolution) : Conclusion :=
  ⟨outcome, ⟨orders, orders ≠ [], outcomeText outcome⟩, delay, resolution, none, none⟩

/-- A REAL admission without a marker needs no broker: nothing was dispatched. -/
def notDispatchedConclusion : Conclusion :=
  ⟨.notDispatched, ⟨[], false, "Durable admission has no SDK dispatch marker"⟩, checkInterval,
    some .notDispatched, none, none⟩

def check (sh : Shared) (op : OperationId) (fault dueFault : Fault) (due started : ℚ) : Store × Phase :=
  match read sh.store fault (sh.journal.row op) with
  | (.error e, st) => (st, .checked (.error e))
  | (.ok none, st) => (st, .checked (.error ⟨.value, "Operation is not owned by this journal", false⟩))
  | (.ok (some row), st) =>
      if ¬sh.late.isEmpty then
        (st, .checked (.error (storeError "OUTCOME_NOT_STORED: restart with healthy storage")))
      else
        match read st dueFault (sh.journal.recoveryRows due) with
        | (.error e, st') => (st', .checked (.error e))
        | (.ok rows, st') =>
            let n : Snapshot := ⟨row, sh.journal.recoveryChecks op⟩
            if ¬rows.any (fun r => r.operationId = op) then (st', .checked (.ok (rowResult row)))
            else if sh.environment = .real ∧ row.state = .admitted ∧ row.marker = false then
              (st', .concluding n started notDispatchedConclusion)
            else (st', .checking n started)

/-- The conclusion of a paper check that found no correlated order. -/
def paperNegative (n : Snapshot) : Conclusion :=
  if n.row.kind = .place ∧ n.row.orderTag ≠ none ∧ n.row.brokerOrderId = none ∧
      (n.row.state = .admitted ∨ n.row.state = .unknownOutcome) ∧ ¬n.seen then
    if n.late then plainConclusion .monitorNotFound monitorInterval [] none
    else if 5 ≤ n.negatives + 1 then plainConclusion .notFound monitorInterval [] (some .assumedAbsent)
    else plainConclusion .notFound (negativeGaps.getD n.negatives 0) [] none
  else plainConclusion .identityNotFound (defaultDelay .simulate) [] none

def negative (env : Environment) (n : Snapshot) : Conclusion :=
  match env with
  | .simulate => paperNegative n
  | .real => plainConclusion .notFound checkInterval [] none

/-- What a failure inside the evidence part of a check leads to: storage errors
leave the check, everything else is recorded as an error. -/
def evidenceFailure (env : Environment) (n : Snapshot) (started : ℚ) (orders : List BrokerOrder) (seen : Bool)
    (e : Exc) : Phase :=
  if e.type = .executionStore then .checked (.error e) else .concluding n started (errorConclusion env orders seen e)

def observe (env : Environment) (n : Snapshot) (started : ℚ) (orders : Except Exc (List BrokerOrder)) : Phase :=
  match orders.bind (Accounting.observations env n.row) with
  | .error e => evidenceFailure env n started [] false e
  | .ok orders =>
      match Accounting.matchingOrders n.row orders with
      | [] => .concluding n started (negative env n)
      | found =>
          if env = .simulate ∧ n.late = true then .correlated n started found else .accounting n started found

/-- The block of a late order is its own transaction, before any accounting. -/
def block (sh : Shared) (n : Snapshot) (started : ℚ) (found : List BrokerOrder) (fault : Fault) : Shared × Phase :=
  match transact sh.store sh.journal fault (fun j => j.blockLateOrder n.row.operationId) with
  | (.error e, st, j) =>
      ({ sh with store := st, journal := j }, evidenceFailure sh.environment n started [] true e)
  | (.ok (), st, j) => ({ sh with store := st, journal := j }, .accounting n started found)

def foundDelay (env : Environment) : ℚ :=
  match env with
  | .simulate => monitorInterval
  | .real => checkInterval

def account (env : Environment) (n : Snapshot) (started : ℚ) (found : List BrokerOrder)
    (positions : Accounting.PositionQuery) : Phase :=
  if found.any (fun o => o.serializable = false) then
    evidenceFailure env n started [] true ⟨.value, "Out of range float values are not JSON compliant", false⟩
  else
    match Accounting.account env n.row found positions with
    | .error e => evidenceFailure env n started found true e
    | .ok none => .concluding n started (plainConclusion .targetPending (defaultDelay env) found none)
    | .ok (some a) =>
        .concluding n started ⟨.found, ⟨found, true, outcomeText .found⟩, foundDelay env,
          some (if env = .simulate ∧ n.late = true then .lateBrokerOrderFound else a.resolution),
          some a.receipt, some a.facts⟩

def recovery (n : Snapshot) (started completed : ℚ) (k : Conclusion) : Recovery where
  observedState := n.row.state
  startedAt := started
  completedAt := completed
  outcome := k.outcome
  details := k.details
  nextCheckAt := completed + k.delay
  resolution := k.resolution
  receipt := k.receipt
  accountedFacts := k.facts

def record (sh : Shared) (n : Snapshot) (started completed : ℚ) (k : Conclusion) (stopped : Bool)
    (fault lookupFault : Fault) : Shared × Phase :=
  if stopped then (sh, .checked (.ok (rowResult n.row)))
  else
    let op := n.row.operationId
    match transact sh.store sh.journal fault
      (fun j => j.recordRecovery sh.store.epoch op (recovery n started completed k)) with
    | (.error e, st, j) => ({ sh with store := st, journal := j }, .checked (.error e))
    | (.ok (), st, j) =>
        match read st lookupFault (j.row op) with
        | (.error e, st') => ({ sh with store := st', journal := j }, .checked (.error e))
        | (.ok none, st') => ({ sh with store := st', journal := j }, .checked (.error ⟨.other, "", false⟩))
        | (.ok (some row), st') => ({ sh with store := st', journal := j }, .checked (.ok (rowResult row)))

/-- One step of one thread. An input that does not fit the program point is not enabled. -/
def act (sh : Shared) : Phase → Input → Option (Shared × Phase)
  | ph, .present c refusal => if ph.resting then some (sh, present sh.environment c refusal) else none
  | .validated c, .lookup access fault =>
      let r := lookup sh c access fault
      some ({ sh with store := r.1 }, r.2)
  | .queued c, .preflight access fault readyFault =>
      let r := preflight sh c access fault readyFault
      some ({ sh with store := r.1 }, r.2)
  | .admitting c, .admitOperation account uuid access fault => some (admitOperation sh c account uuid access fault)
  | .admitted c row, .enter fault =>
      let r := enter sh c row fault
      some ({ sh with store := r.1 }, r.2)
  | .entered c row, .prepare orders fault a =>
      let r := prepare sh c row orders fault a
      some ({ sh with store := r.1 }, r.2)
  | .prepared c row p, .mark controls readyFault confirm fault relock =>
      some (match sh.environment with
        | .simulate => markPaper sh c row p controls confirm fault
        | .real => markReal sh c row p controls readyFault confirm fault relock)
  | .marked c row p, .start failure relock => some (start sh c row p failure relock)
  | .calling c row p, .answer a relock => some (sh, answer sh.environment c row p a relock)
  | .finishing c row _ sdk o, .finish fault lookupFault =>
      let r := finish sh row o fault lookupFault
      some (r.1, .done c sdk (.ok r.2))
  | .refusing c row e, .refuse fault lookupFault => some (refuse sh c row e fault lookupFault)
  | ph, .check op fault dueFault due started =>
      if ph.resting then
        let r := check sh op fault dueFault due started
        some ({ sh with store := r.1 }, r.2)
      else none
  | .checking n started, .observe orders => some (sh, observe sh.environment n started orders)
  | .correlated n started found, .block fault => some (block sh n started found fault)
  | .accounting n started found, .account positions =>
      some (sh, account sh.environment n started found positions)
  | .concluding n started k, .record completed stopped fault lookupFault =>
      some (record sh n started completed k stopped fault lookupFault)
  | _, _ => none

end MoomooMcp.Executor
