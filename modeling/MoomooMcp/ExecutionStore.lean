import Mathlib.Data.Finset.Image
import Mathlib.Algebra.Order.Ring.Rat
import MoomooMcp.Broker
import MoomooMcp.OrderErrors
import MoomooMcp.Table

namespace MoomooMcp.ExecutionStore

inductive State
  | admitted
  | dispatching
  | acknowledged
  | refused
  | unknownOutcome
  | reconciled
  | terminalAccounted
  deriving DecidableEq, Repr

inductive Disposition
  | pendingChecks
  | inFlight
  | acknowledged
  | notSent
  | possiblySent
  | brokerAccounted
  deriving DecidableEq, Repr

inductive Reason
  | recoveredDispatch
  | startupReview
  | unresolvedOutcome
  | receiptUnreadable
  | lateOrderFound
  deriving DecidableEq, Repr

inductive Resolution
  | assumedAbsent
  | notDispatched
  | brokerConfirmed
  | currentStateAccounted
  | lateBrokerOrderFound
  | terminalAccounted
  deriving DecidableEq, Repr

inductive CheckOutcome
  | notDispatched
  | found
  | targetPending
  | notFound
  | monitorNotFound
  | identityNotFound
  | error
  deriving DecidableEq, Repr

/-- The identity an operation is admitted under. -/
structure Canonical where
  env : Environment
  account : Account
  opType : Kind
  params : Params
  deriving DecidableEq, Repr

structure Row where
  operationId : OperationId
  admissionEpoch : Epoch
  account : Account
  kind : Kind
  canonical : Canonical
  request : Params
  orderTag : Option Tag
  state : State
  disposition : Disposition
  mergedRequest : Option Params := none
  receipt : Option Receipt := none
  brokerOrderId : Option OrderId := none
  brokerStatus : Option OrderStatus := none
  evidence : List BrokerOrder := []
  error : Option String := none
  marker : Bool := false
  modificationObserved : Bool := false
  recoveryDisposition : Option Resolution := none
  nextRecoveryAt : ℚ := 0

structure Details where
  orders : List BrokerOrder := []
  correlatedOrderSeen : Bool := false
  reason : String

structure Check where
  operationId : OperationId
  startedAt : ℚ
  completedAt : ℚ
  outcome : CheckOutcome
  details : Details

/-- What accounting establishes about a located order. -/
structure Facts where
  code : Option Code
  accId : Account
  trdEnv : Environment
  brokerStatus : OrderStatus
  filledQuantity : ℚ
  averageFillPrice : ℚ
  remainingExecutableQuantity : ℚ
  currentPositions : List (Code × ℚ)
  mutationSuccessProven : Bool

inductive EvidenceReference
  | brokerOrder (id : Option OrderId)
  | orderTag (tag : Tag)
  | operation (id : OperationId)

structure Audit where
  operationId : OperationId
  resolution : Resolution
  reason : String
  evidenceReference : EvidenceReference
  accountedFacts : Option Facts
  recoveryEpoch : Epoch
  observedState : State
  previousState : State

/-- The durable tables. `markers` is a ghost: the operations whose dispatch
marker was committed, oldest first. -/
structure Journal where
  environment : Environment
  epochs : List Epoch
  operations : Table Row.operationId
  reviews : Finset (OperationId × Reason)
  checks : List Check
  audits : List Audit
  markers : List OperationId

def Journal.initial (environment : Environment) : Journal :=
  ⟨environment, [], Table.empty, ∅, [], [], []⟩

def Journal.row (j : Journal) (op : OperationId) : Option Row := j.operations.lookup op

def Journal.pending (j : Journal) (op : OperationId) : Prop := ∃ reason, (op, reason) ∈ j.reviews

instance (j : Journal) (op : OperationId) : Decidable (j.pending op) :=
  decidable_of_iff (∃ p ∈ j.reviews, p.1 = op)
    ⟨fun ⟨p, hp, he⟩ => ⟨p.2, by rw [← he]; exact hp⟩, fun ⟨reason, h⟩ => ⟨(op, reason), h, rfl⟩⟩

/-- The recorded checks of one operation, oldest first. -/
def Journal.recoveryChecks (j : Journal) (op : OperationId) : List Check :=
  j.checks.filter (fun c => c.operationId = op)

/-- What a transaction body can end with: an exception of its own, which rolls
back, or an error of the database, which also condemns the store. -/
inductive Fail
  | exc (e : Exc)
  | sqlite (message : String)

def conflict (message : String) : Fail := .exc ⟨.executionConflict, message, false⟩

structure Admission where
  operationId : OperationId
  epoch : Epoch
  account : Account
  kind : Kind
  canonical : Canonical
  request : Params
  uuid : Tag

def Admission.orderTag (a : Admission) : Option Tag :=
  match a.kind with
  | .place | .placeCombo => some a.uuid
  | .modify | .cancel => none

def Admission.row (a : Admission) : Row where
  operationId := a.operationId
  admissionEpoch := a.epoch
  account := a.account
  kind := a.kind
  canonical := a.canonical
  request := a.request
  orderTag := a.orderTag
  state := .admitted
  disposition := .pendingChecks

def Journal.admitOperation (j : Journal) (epoch : Epoch) (reviewed : Bool) (a : Admission) :
    Except Fail ((Row × Bool) × Journal) :=
  match h : j.row a.operationId with
  | some existing => .ok ((existing, false), j)
  | none =>
      if a.epoch ≠ epoch then
        .error (conflict "Unknown non-current-epoch token cannot be accounted for; do not refresh it")
      else if reviewed = false ∨ j.reviews ≠ ∅ then
        .error (conflict "Recovery review is outstanding or execution is blocked")
      else if a.account = 0 then .error (.sqlite "CHECK constraint failed: account != '0'")
      else if a.orderTag ≠ none ∧ ∃ r ∈ j.operations.rows, r.orderTag = a.orderTag then
        .error (.sqlite "UNIQUE constraint failed: operations.order_tag")
      else .ok ((a.row, true), { j with operations := j.operations.insert a.row h })

def Row.markDispatch (merged : Params) (r : Row) : Row :=
  { r with state := .dispatching, disposition := .inFlight, marker := true, mergedRequest := some merged }

def Journal.markDispatch (j : Journal) (op : OperationId) (merged : Params) : Except Fail (Unit × Journal) :=
  match j.row op with
  | some r =>
      if r.state = .admitted then
        .ok ((), { j with
          operations := j.operations.modify op (Row.markDispatch merged) (fun _ => rfl)
          markers := j.markers ++ [op] })
      else .error (conflict "Operation is not awaiting dispatch")
  | none => .error (conflict "Operation is not awaiting dispatch")

structure Outcome where
  state : State
  disposition : Disposition
  receipt : Option Receipt := none
  error : Option String := none
  reason : Option Reason := none
  observedModifications : List OperationId := []

def Row.outcome (o : Outcome) (r : Row) : Row :=
  { r with
    state := o.state
    disposition := o.disposition
    receipt := o.receipt
    brokerOrderId := (o.receipt.bind Receipt.orderId).or r.brokerOrderId
    brokerStatus := (o.receipt.bind Receipt.orderStatus).or r.brokerStatus
    error := o.error }

def Row.observe (observed : List OperationId) (r : Row) : Row :=
  if r.operationId ∈ observed ∧ r.kind = .modify ∧ r.state = .acknowledged then
    { r with modificationObserved := true }
  else r

theorem Row.observe_key (observed : List OperationId) (r : Row) :
    (r.observe observed).operationId = r.operationId := by
  unfold Row.observe
  split <;> rfl

def Journal.outcome (j : Journal) (op : OperationId) (o : Outcome) : Except Fail (Unit × Journal) :=
  if o.reason ≠ none ∧ j.row op = none then .error (.sqlite "FOREIGN KEY constraint failed")
  else
    let written := j.operations.modify op (Row.outcome o) (fun _ => rfl)
    .ok ((), { j with
      operations :=
        if o.state = .acknowledged then
          written.modifyAll (Row.observe o.observedModifications) (Row.observe_key _)
        else written
      reviews := match o.reason with
        | some reason => insert (op, reason) j.reviews
        | none => j.reviews })

def Journal.blockLateOrder (j : Journal) (op : OperationId) : Except Fail (Unit × Journal) :=
  if j.row op = none then .error (.sqlite "FOREIGN KEY constraint failed")
  else .ok ((), { j with reviews := insert (op, .lateOrderFound) j.reviews })

/-- Pending reviews and assumed placements whose next check is due. -/
def Journal.recoveryRows (j : Journal) (dueAt : ℚ) : List Row :=
  j.operations.rows.filter (fun r => r.nextRecoveryAt ≤ dueAt ∧
    (j.pending r.operationId ∨ r.recoveryDisposition = some .assumedAbsent))

/-- Acknowledgement alone does not establish the new broker order fields. -/
def Journal.unobservedModifications (j : Journal) (account : Account) (order : OrderId) : List Row :=
  j.operations.rows.filter (fun r => r.account = account ∧ r.kind = .modify ∧ r.state = .acknowledged ∧
    r.modificationObserved = false ∧ r.request.orderId.map OrderId.value = some order.value)

structure Recovery where
  observedState : State
  startedAt : ℚ
  completedAt : ℚ
  outcome : CheckOutcome
  details : Details
  nextCheckAt : ℚ
  resolution : Option Resolution := none
  receipt : Option Receipt := none
  accountedFacts : Option Facts := none

def Recovery.check (r : Recovery) (op : OperationId) : Check :=
  ⟨op, r.startedAt, r.completedAt, r.outcome, r.details⟩

def Row.recordCheck (r : Recovery) (row : Row) : Row :=
  { row with evidence := r.details.orders, nextRecoveryAt := r.nextCheckAt }

def Journal.recordCheck (j : Journal) (op : OperationId) (r : Recovery) : Journal :=
  { j with
    checks := j.checks ++ [r.check op]
    operations := j.operations.modify op (Row.recordCheck r) (fun _ => rfl) }

/-- The number of recorded checks of an operation that found nothing. -/
def Journal.negatives (j : Journal) (op : OperationId) : ℕ :=
  ((j.recoveryChecks op).filter (fun c => c.outcome = .notFound)).length

/-- The state and disposition a resolution leads to, for a row and its checks as
they were before this one; `count` includes this one. -/
def Journal.disposition (j : Journal) (row : Row) (count : ℕ) (r : Recovery) :
    Resolution → Except Fail (State × Disposition)
  | .assumedAbsent =>
      if j.environment ≠ .simulate then .error (conflict "REAL recovery cannot assume absence")
      else if row.kind ≠ .place ∨ ¬(row.state = .admitted ∨ row.state = .unknownOutcome) ∨
          row.orderTag = none ∨ row.brokerOrderId ≠ none ∨
          (∃ c ∈ j.recoveryChecks row.operationId, c.details.correlatedOrderSeen = true) ∨
          count < 5 ∨ row.recoveryDisposition ≠ none then
        .error (conflict "Assumed absence requires five tagged placement negatives")
      else .ok (.unknownOutcome, .possiblySent)
  | .notDispatched =>
      if j.environment ≠ .real ∨ row.state ≠ .admitted ∨ row.marker = true then
        .error (conflict "Not-dispatched recovery requires an unmarked REAL admission")
      else .ok (.refused, .notSent)
  | .brokerConfirmed | .currentStateAccounted | .lateBrokerOrderFound =>
      if r.receipt.isNone ∨ r.accountedFacts.isNone then
        .error (conflict "Broker recovery requires order and position evidence")
      else .ok (.reconciled, .brokerAccounted)
  | .terminalAccounted =>
      if r.receipt.isNone ∨ r.accountedFacts.isNone then
        .error (conflict "Broker recovery requires order and position evidence")
      else .ok (.terminalAccounted, .brokerAccounted)

def Recovery.audit (r : Recovery) (row : Row) (resolution : Resolution) (epoch : Epoch) : Audit where
  operationId := row.operationId
  resolution := resolution
  reason := r.details.reason
  evidenceReference := match r.receipt, row.orderTag with
    | some receipt, _ => .brokerOrder receipt.orderId
    | none, some tag => .orderTag tag
    | none, none => .operation row.operationId
  accountedFacts := r.accountedFacts
  recoveryEpoch := epoch
  observedState := r.observedState
  previousState := row.state

def Row.resolve (r : Recovery) (resolution : Resolution) (target : State × Disposition) (row : Row) : Row :=
  { row with
    state := target.1
    disposition := target.2
    recoveryDisposition := some resolution
    receipt := r.receipt.or row.receipt
    brokerOrderId := (r.receipt.bind Receipt.orderId).or row.brokerOrderId
    brokerStatus := (r.receipt.bind Receipt.orderStatus).or row.brokerStatus
    modificationObserved := row.kind = .modify }

def Journal.resolve (j : Journal) (op : OperationId) (r : Recovery) (resolution : Resolution)
    (target : State × Disposition) (audit : Audit) : Journal :=
  { j with
    audits := j.audits ++ [audit]
    operations := j.operations.modify op (Row.resolve r resolution target) (fun _ => rfl)
    reviews := j.reviews.filter (fun p => p.1 ≠ op) }

/-- Check, disposition, audit and gate release form one durable transaction. -/
def Journal.recordRecovery (j : Journal) (epoch : Epoch) (op : OperationId) (r : Recovery) :
    Except Fail (Unit × Journal) :=
  match j.row op with
  | none => .error (conflict "Recovery observed stale operation state")
  | some row =>
      if row.state ≠ r.observedState then .error (conflict "Recovery observed stale operation state")
      else
        match r.resolution with
        | none => .ok ((), j.recordCheck op r)
        | some resolution =>
            match j.disposition row ((j.recordCheck op r).negatives op) r resolution with
            | .error e => .error e
            | .ok target =>
                .ok ((), (j.recordCheck op r).resolve op r resolution target (r.audit row resolution epoch))

def requirements (rows : List Row) (p : Row → Bool) (reason : Reason) : Finset (OperationId × Reason) :=
  ((rows.filter p).map (fun r => (r.operationId, reason))).toFinset

def Row.awaitsReview (r : Row) : Bool :=
  (r.state = .admitted ∨ r.state = .unknownOutcome) ∧ r.recoveryDisposition = none

def Row.recoverDispatch (r : Row) : Row :=
  if r.state = .dispatching then
    { r with
      state := .unknownOutcome
      disposition := .possiblySent
      error := some "Recovered dispatch without durable outcome" }
  else r

theorem Row.recoverDispatch_key (r : Row) : r.recoverDispatch.operationId = r.operationId := by
  unfold Row.recoverDispatch
  split <;> rfl

/-- The transaction every start of the store begins with. -/
def Journal.startup (j : Journal) (epoch : Epoch) : Except Fail (Unit × Journal) :=
  if epoch ∈ j.epochs then .error (.sqlite "UNIQUE constraint failed: epochs.epoch")
  else
    let recovered := j.operations.modifyAll Row.recoverDispatch Row.recoverDispatch_key
    .ok ((), { j with
      epochs := j.epochs ++ [epoch]
      operations := recovered
      reviews := j.reviews ∪
        requirements j.operations.rows (fun r => r.state = .dispatching) .recoveredDispatch ∪
        requirements recovered.rows Row.awaitsReview .startupReview })

def Journal.review (j : Journal) : Except Fail (Unit × Journal) :=
  .ok ((), { j with reviews := j.reviews ∪ requirements j.operations.rows Row.awaitsReview .startupReview })

/-- The part of an open store that a restart forgets. -/
structure Store where
  epoch : Epoch
  reviewed : Bool
  failed : Option String

def Store.fail (st : Store) (message : String) : Store :=
  { st with failed := some ("STORAGE_FAILED: " ++ message ++
      "; restart with healthy storage and review recovery") }

/-- What may go wrong during one access: an exception of Python's own, which
rolls back, or an error of the database or the file system, which condemns the
store. With the latter the commit itself may still have reached the disk. -/
inductive Fault
  | none
  | raised (e : Exc)
  | sqlite (message : String) (applied : Bool)

def storeError (message : String) : Exc := ⟨.executionStore, message, false⟩

def transact {β : Type} (st : Store) (j : Journal) (fault : Fault)
    (body : Journal → Except Fail (β × Journal)) : Except Exc β × Store × Journal :=
  match st.failed with
  | some message => (.error (storeError message), st, j)
  | none =>
      match fault, body j with
      | .raised e, _ => (.error e, st, j)
      | .sqlite message true, .ok (_, j') => (.error (storeError message), st.fail message, j')
      | .sqlite message _, _ => (.error (storeError message), st.fail message, j)
      | .none, .ok (b, j') => (.ok b, st, j')
      | .none, .error (.exc e) => (.error e, st, j)
      | .none, .error (.sqlite message) => (.error (storeError message), st.fail message, j)

def read {β : Type} (st : Store) (fault : Fault) (value : β) : Except Exc β × Store :=
  match st.failed with
  | some message => (.error (storeError message), st)
  | none =>
      match fault with
      | .none => (.ok value, st)
      | .raised e => (.error e, st)
      | .sqlite message _ => (.error (storeError message), st.fail message)

inductive Health
  | journalBlocked
  | reviewPending
  | ready
  deriving DecidableEq, Repr

def Health.text : Health → String
  | .journalBlocked => "JOURNAL_BLOCKED"
  | .reviewPending => "REVIEW_PENDING"
  | .ready => "READY"

def Journal.health (j : Journal) (reviewed : Bool) : Health :=
  if ∃ p ∈ j.reviews, p.2 ≠ .startupReview then .journalBlocked
  else if reviewed = false ∨ j.reviews ≠ ∅ then .reviewPending
  else .ready

/-- The readiness gate; a storage error counts as a blocked journal. -/
def requireReady (st : Store) (j : Journal) (fault : Fault) : Except Exc Unit × Store :=
  let refusal (health : Health) : Exc :=
    ⟨.executionConflict, Environment.text j.environment ++ " execution " ++ health.text ++
      ": automatic recovery or healthy storage restart is required; " ++
      "see check_health/get_execution. No order was sent", false⟩
  match read st fault (j.health st.reviewed) with
  | (.ok .ready, st') => (.ok (), st')
  | (.ok health, st') => (.error (refusal health), st')
  | (.error e, st') =>
      if e.type = .executionStore then (.error (refusal .journalBlocked), st') else (.error e, st')

end MoomooMcp.ExecutionStore
