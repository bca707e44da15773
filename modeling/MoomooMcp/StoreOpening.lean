import MoomooMcp.Commits
import MoomooMcp.CrashPoints

namespace MoomooMcp.ExecutionStore

open CrashPoints Durable

/-- The columns of an operation that every schema has. -/
structure Columns where
  operationId : OperationId
  admissionEpoch : Epoch
  account : Account
  kind : Kind
  canonical : Canonical
  request : Params
  state : State
  disposition : Disposition
  mergedRequest : Option Params
  receipt : Option Receipt
  brokerOrderId : Option OrderId
  brokerStatus : Option OrderStatus
  evidence : List BrokerOrder
  error : Option String
  marker : Bool

/-- Schema 2 remembers which acknowledged modifications the broker has shown. -/
structure ObservedRow extends Columns where
  modificationObserved : Bool

def Columns.addModificationObserved (r : Columns) : ObservedRow := ⟨r, false⟩

def ObservedRow.upgrade (r : ObservedRow) : Row where
  operationId := r.operationId
  admissionEpoch := r.admissionEpoch
  account := r.account
  kind := r.kind
  canonical := r.canonical
  request := r.request
  orderTag := none
  state := r.state
  disposition := r.disposition
  mergedRequest := r.mergedRequest
  receipt := r.receipt
  brokerOrderId := r.brokerOrderId
  brokerStatus := r.brokerStatus
  evidence := r.evidence
  error := r.error
  marker := r.marker
  modificationObserved := r.modificationObserved
  recoveryDisposition := none
  nextRecoveryAt := 0

def Row.columns (r : Row) : Columns :=
  ⟨r.operationId, r.admissionEpoch, r.account, r.kind, r.canonical, r.request, r.state, r.disposition,
    r.mergedRequest, r.receipt, r.brokerOrderId, r.brokerStatus, r.evidence, r.error, r.marker⟩

/-- The tables of the schemas before recovery checks were kept. -/
structure Legacy {ρ : Type} (key : ρ → OperationId) where
  environment : Environment
  epochs : List Epoch
  operations : Table key
  reviews : Finset (OperationId × Reason)
  audits : List Audit

def ObservedRow.key (r : ObservedRow) : OperationId := r.operationId

def Legacy.addModificationObserved (l : Legacy Columns.operationId) : Legacy ObservedRow.key :=
  ⟨l.environment, l.epochs, l.operations.map Columns.addModificationObserved (fun _ => rfl), l.reviews, l.audits⟩

/-- The journal that the migration makes of schema 2. Its ghost of committed
dispatches are the marked rows. -/
def Legacy.upgrade (l : Legacy ObservedRow.key) : Journal where
  environment := l.environment
  epochs := l.epochs
  operations := l.operations.map ObservedRow.upgrade (fun _ => rfl)
  reviews := l.reviews
  checks := []
  audits := l.audits
  markers := (l.operations.rows.filter (fun r => r.marker)).map ObservedRow.key

/-- What a journal file holds, by its schema. -/
inductive Contents
  | first (l : Legacy Columns.operationId)
  | second (l : Legacy ObservedRow.key)
  | third (j : Journal)

/-- Where the journal is kept. A file without contents is one that was only created. -/
inductive Disk
  | missing
  | file (contents : Option Contents)

def Contents.version : Contents → ℕ
  | .first _ => 1
  | .second _ => 2
  | .third _ => 3

def Contents.environment : Contents → Environment
  | .first l => l.environment
  | .second l => l.environment
  | .third j => j.environment

/-- One transaction adds the columns, the index and the table that are missing. -/
def Contents.migrate : Contents → Journal
  | .first l => l.addModificationObserved.upgrade
  | .second l => l.upgrade
  | .third j => j

def Legacy.initial (environment : Environment) : Legacy ObservedRow.key := ⟨environment, [], .empty, ∅, []⟩

structure Options where
  path : String
  create : Bool
  environment : Environment

def wrongEnvironment (o : Options) : Exc := storeError ("Journal environment is not " ++ o.environment.text)

/-- What a file is probed for: its schema version, and with a known schema its environment. -/
def probe (o : Options) : Option Contents → Except Exc Contents
  | none => .error (storeError "Unsupported journal schema 0; expected 3")
  | some c => if c.environment = o.environment then .ok c else .error (wrongEnvironment o)

def journal (j : Journal) : Disk := .file (some (.third j))

/-- The last part of the constructor. A fault of the storage may come before or after its commit. -/
def recover (epoch : Epoch) (fault : Fault) (j : Journal) : Durable Disk Exc Store :=
  match transact ⟨epoch, false, none⟩ j fault (fun j => j.startup epoch) with
  | (.ok (), st, j') => do
      write (journal j')
      return st
  | (.error e, _, j') => do
      write (journal j')
      fail e

def openFile (o : Options) (epoch : Epoch) (fault : Fault) (contents : Option Contents) : Durable Disk Exc Store :=
  match probe o contents with
  | .error e => fail e
  | .ok c => do
      if c.version < 3 then write (journal c.migrate)
      recover epoch fault c.migrate

/-- The constructor: where the file is missing an empty one first, then the
schema script in one transaction, and with any file what has to be done with it. -/
def openStore (o : Options) (epoch : Epoch) (fault : Fault) : Durable Disk Exc Store := do
  match ← look with
  | .missing =>
      if o.create then
        write (.file none)
        write (.file (some (.second (.initial o.environment))))
        openFile o epoch fault (some (.second (.initial o.environment)))
      else fail (storeError ("Missing journal: " ++ o.path ++ "; explicit initialization required"))
  | .file contents => openFile o epoch fault contents

end MoomooMcp.ExecutionStore
