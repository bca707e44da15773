import MoomooMcp.DecimalContext
import MoomooMcp.Numbers
import MoomooMcp.Table

namespace MoomooMcp.TradingControls

open Intent

abbrev RequestId := String

structure ContractLeg where
  code : String
  qtyRatio : String
  monetaryMultiplier : Option String
  deriving DecidableEq, Repr

/-- The order being reviewed, with every number as its exact text. -/
structure Contract where
  orderType : String
  tradeSide : String
  qty : String
  price : Option String
  auxPrice : Option String
  isCombo : Bool
  legs : List ContractLeg
  deriving DecidableEq, Repr

/-- What is shown to the operator: the contract, if there is one, within the encoded evidence. -/
structure Review where
  contract : Option Contract
  evidence : String

inductive Status
  | pending
  | approved
  | rejected
  | consumed
  deriving DecidableEq, Repr

structure Prepared where
  requestId : RequestId
  canonical : String
  method : String
  parameters : Parameters
  review : Review
  createdAt : ℚ
  expiresAt : ℚ
  status : Status
  operatorId : Option String
  reason : Option String
  decidedAt : Option ℚ
  consumedAt : Option ℚ

structure Charge where
  environment : String
  account : Account
  operationId : OperationId
  canonical : String
  day : ℤ
  currency : Option String
  amount : Decimal
  approvalId : Option RequestId
  createdAt : ℚ

abbrev ChargeKey := String × Account × OperationId

def Charge.key (c : Charge) : ChargeKey := (c.environment, c.account, c.operationId)

structure Pause where
  environment : Environment
  account : Account
  paused : Bool
  operatorId : String
  reason : String
  updatedAt : ℚ

abbrev Scope := Environment × Account

def Pause.scope (p : Pause) : Scope := (p.environment, p.account)

structure Database where
  prepared : Table Prepared.requestId
  charges : Table Charge.key
  pauses : Table Pause.scope

def Database.initial : Database := ⟨.empty, .empty, .empty⟩

/-- The open store of one process. -/
structure Store where
  closed : Bool
  failed : Bool

def Store.opened : Store := ⟨false, false⟩

def controlError (message : String) : Exc := ⟨.tradingControl, message, false⟩

def blocked : Exc := controlError "Trading controls storage is blocked"

/-- Why the statements of a transaction stopped: an exception of the code between
them, or an error of the database. -/
inductive Abort
  | raised (e : Exc)
  | database

/-- A transaction is rolled back unless its commit returned. An error of the
database blocks the store. -/
def transact {β : Type} (st : Store) (db : Database) (fault : Bool)
    (body : Database → Except Abort (β × Database)) : Except Exc β × Store × Database :=
  if st.closed || st.failed then (.error blocked, st, db)
  else if fault then (.error blocked, { st with failed := true }, db)
  else
    match body db with
    | .ok (b, db') => (.ok b, st, db')
    | .error (.raised e) => (.error e, st, db)
    | .error .database => (.error blocked, { st with failed := true }, db)

/-- The UTC day of a clock reading, which is rounded to microseconds first. -/
def utcDay (now : ℚ) : ℤ := Decimal.roundHalfEven (now * 1000000) / 86400000000

def refuse {α : Type} (message : String) : Except Abort α := .error (.raised (controlError message))

def prepare (st : Store) (db : Database) (fault : Bool) (now : ℚ) (identifier : RequestId) (method : String)
    (p : Parameters) (review : Review) (ttlSeconds : ℤ) : Except Exc Prepared × Store × Database :=
  if ttlSeconds < 1 ∨ 900 < ttlSeconds then
    (.error (valueError "Approval expiry must be between 1 and 900 seconds"), st, db)
  else
    match canonicalIntent method p with
    | .error e => (.error e, st, db)
    | .ok canonical =>
        if 65536 < review.evidence.utf8ByteSize then
          (.error (valueError "Prepared review exceeds 64 KiB"), st, db)
        else
          transact st db fault (fun db =>
            let row : Prepared :=
              ⟨identifier, canonical, method, p, review, now, now + ttlSeconds, .pending, none, none, none, none⟩
            if h : db.prepared.lookup row.requestId = none then
              .ok (row, { db with prepared := db.prepared.insert row h })
            else .error .database)

def decision : String → Option Status
  | "APPROVED" => some .approved
  | "REJECTED" => some .rejected
  | _ => none

def Prepared.decided (row : Prepared) (status : Status) (operatorId reason : String) (at_ : ℚ) : Prepared :=
  { row with status := status, operatorId := some operatorId, reason := some reason, decidedAt := some at_ }

@[simp] theorem Prepared.decided_requestId (row : Prepared) (status : Status) (operatorId reason : String) (at_ : ℚ) :
    (row.decided status operatorId reason at_).requestId = row.requestId := rfl

def decide (st : Store) (db : Database) (fault : Bool) (now decidedAt : ℚ) (requestId : RequestId)
    (choice operatorId reason : String) : Except Exc Unit × Store × Database :=
  match decision choice with
  | none => (.error (valueError "Decision must be APPROVED or REJECTED"), st, db)
  | some status =>
      if operatorId.isEmpty ∨ 128 < operatorId.length then
        (.error (valueError "Operator identity is required and bounded"), st, db)
      else if (Text.strip reason.toList).isEmpty ∨ 2000 < reason.length then
        (.error (valueError "A decision reason of at most 2000 characters is required"), st, db)
      else
        transact st db fault (fun db =>
          match db.prepared.lookup requestId with
          | none => .error (.raised (valueError "Prepared request does not exist"))
          | some row =>
              if row.status ≠ .pending ∨ row.expiresAt ≤ now then refuse "Prepared decision is final or expired"
              else
                .ok ((), { db with
                  prepared := db.prepared.modify requestId (·.decided status operatorId reason decidedAt)
                    (fun row => row.decided_requestId status operatorId reason decidedAt) }))

/-- The approval a request may use, checked against the reviewed contract as well
where one is asked for. -/
def approved (db : Database) (now : ℚ) (approvalId : Option RequestId) (canonical : String)
    (contract : Option (Option Contract)) : Except Abort Prepared :=
  match approvalId.filter (fun id => !id.isEmpty) with
  | none => refuse "A trusted operator approval is required"
  | some id =>
      match db.prepared.lookup id with
      | none => refuse "Approval does not match the exact request"
      | some row =>
          if row.canonical ≠ canonical then refuse "Approval does not match the exact request"
          else if row.status ≠ .approved ∨ row.expiresAt ≤ now then
            refuse "Approval is missing, rejected, consumed or expired"
          else if contract.any (fun c => row.review.contract ≠ c) then
            refuse "Approved target contract changed; prepare again"
          else .ok row

/-- What the currency of a charge may still cost on one day. -/
abbrev Caps := List (String × Decimal)

def spent (db : Database) (day : ℤ) (environment : String) (account : Account) (currency : String) : List Decimal :=
  (db.charges.rows.filter (fun c =>
    c.day = day ∧ c.environment = environment ∧ c.account = account ∧ c.currency = some currency)).map (·.amount)

/-- The digits that the sum of a list may need. -/
def sumPrecision (values : List Decimal) : ℕ :=
  max 28 (Decimal.integerDigits values + Decimal.fractionalDigits values + Decimal.digits values.length + 1)

def overflow : Abort := .raised ⟨.other, "[<class 'decimal.Overflow'>]", false⟩

/-- The exact sum of a list, in a context with room for all its digits. -/
def sumExact (values : List Decimal) : Except Abort Decimal :=
  if Decimal.maxPrec < sumPrecision values then .error (.raised (valueError "valid range for prec is [1, MAX_PREC]"))
  else ((⟨sumPrecision values, -999999, 999999⟩ : Decimal.Context).sum values).elim (.error overflow) .ok

/-- The budget check of one charge. -/
def withinBudget (db : Database) (day : ℤ) (environment : String) (account : Account) (currency : Option String)
    (amount : Decimal) (caps : Caps) : Except Abort Unit :=
  if caps = [] ∨ amount.value ≤ 0 then .ok ()
  else
    match currency.bind (fun c => (caps.lookup c).map (fun cap => (c, cap))) with
    | none => refuse "Daily budget currency cannot be established or is uncapped"
    | some (c, cap) => do
        let used ← sumExact (spent db day environment account c)
        let charged ← sumExact [used, amount]
        if cap.value < charged.value then
          refuse ("Daily submission budget exceeded: " ++ charged.str ++ " " ++ c)
        else .ok ()

/-- What a mutation presents to the controls. -/
structure Reservation where
  method : String
  parameters : Parameters
  approvalId : Option RequestId
  requireApproval : Bool
  contract : Option Contract

def Prepared.use (row : Prepared) (now : ℚ) : Prepared :=
  { row with status := .consumed, consumedAt := some now }

@[simp] theorem Prepared.use_requestId (row : Prepared) (now : ℚ) : (row.use now).requestId = row.requestId := rfl

/-- The statements of `consume`, between two clock readings of one transaction. -/
def consumption (db : Database) (now later : ℚ) (r : Reservation) (charge : Charge) (caps : Caps) :
    Except Abort (Unit × Database) :=
  if h : db.charges.lookup charge.key = none then do
    if r.requireApproval then
      let _ ← approved db later r.approvalId charge.canonical (some r.contract)
    withinBudget db charge.day charge.environment charge.account charge.currency charge.amount caps
    let charged := { db with charges := db.charges.insert charge h }
    return ((), if r.requireApproval then
      { charged with prepared := charged.prepared.modify (r.approvalId.getD "") (·.use now) (fun row => row.use_requestId now) }
      else charged)
  else if (db.charges.lookup charge.key).any (fun c => c.canonical ≠ charge.canonical) then
    refuse "Daily budget operation identity conflict"
  else refuse "Trading control reservation is already consumed"

/-- The operation a charge is made for, if the request is durably identified. -/
def operation (p : Parameters) : Option OperationId :=
  if p.admissionEpoch.any (fun e => !e.isEmpty) then p.operationId.filter (fun op => !op.isEmpty) else none

def consume (st : Store) (db : Database) (fault : Bool) (now later : ℚ) (r : Reservation) (currency : Option String)
    (amount : Numeral) (caps : Caps) : Except Exc Unit × Store × Database :=
  match canonicalIntent r.method r.parameters, canonicalAccount r.parameters.accId with
  | .error e, _ | .ok _, .error e => (.error e, st, db)
  | .ok canonical, .ok account =>
      match operation r.parameters, amount with
      | none, _ => (.error (controlError "Trading controls require durable operation identity"), st, db)
      | some _, .nonFinite => (.error (controlError "Daily budget valuation is invalid"), st, db)
      | some op, .finite d =>
          if d.value < 0 then (.error (controlError "Daily budget valuation is invalid"), st, db)
          else
            transact st db fault (fun db =>
              consumption db now later r
                ⟨r.parameters.trdEnv, account, op, canonical, utcDay now, currency, d, r.approvalId, now⟩ caps)

/-- The statements of `confirm_reservation`. -/
def confirmation (db : Database) (now later : ℚ) (r : Reservation) (canonical : String) (key : ChargeKey) :
    Except Abort Unit :=
  match db.charges.lookup key with
  | none => refuse "Trading control reservation is unavailable"
  | some charge =>
      if charge.canonical ≠ canonical then refuse "Trading control reservation is unavailable"
      else if charge.day ≠ utcDay now then refuse "Daily reservation expired at the UTC day boundary"
      else if !r.requireApproval then .ok ()
      else
        match r.approvalId.bind db.prepared.lookup with
        | none => refuse "Approval expired before broker dispatch"
        | some row =>
            if row.canonical ≠ canonical ∨ row.status ≠ .consumed ∨ charge.approvalId ≠ r.approvalId ∨
                row.expiresAt ≤ later then refuse "Approval expired before broker dispatch"
            else if row.review.contract ≠ r.contract then refuse "Approved target contract changed; prepare again"
            else .ok ()

/-- Recheck the reservation after unlock, immediately before journal dispatch. -/
def confirmReservation (st : Store) (db : Database) (fault : Bool) (now later : ℚ) (r : Reservation) :
    Except Exc Unit × Store × Database :=
  match canonicalIntent r.method r.parameters, canonicalAccount r.parameters.accId with
  | .error e, _ | .ok _, .error e => (.error e, st, db)
  | .ok canonical, .ok account =>
      transact st db fault (fun db => do
        confirmation db now later r canonical (r.parameters.trdEnv, account, r.parameters.operationId.getD "")
        return ((), db))

def pauseScope (environment account : String) : Except Exc Scope :=
  if Text.normalize environment = "REAL" then do
    return (.real, ← exactAccount "acc_id must be an exact decimal identifier" account)
  else if Text.normalize environment = "SIMULATE" then do
    return (.simulate, ← exactAccount "acc_id must be an exact decimal identifier" account)
  else .error (valueError "trd_env must be REAL or SIMULATE")

/-- The entries that cover an account: the environment's, which is kept under
account 0, and its own. -/
def decisions (db : Database) (scope : Scope) : List Pause :=
  (db.pauses.lookup (scope.1, 0)).toList ++
    if scope.2 = 0 then [] else (db.pauses.lookup scope).toList

def paused (db : Database) (scope : Scope) : Bool := (decisions db scope).any (·.paused)

def pauseState (st : Store) (db : Database) (fault : Bool) (scope : Scope) : Except Exc Bool × Store :=
  match transact st db fault (fun db => .ok (paused db scope, db)) with
  | (r, st', _) => (r, st')

def isPrintable (text : String) : Bool :=
  text.toList.all (fun c => c = ' ' || (!Text.isSpace c && 32 < c.toNat && c.toNat ≠ 127))

/-- The entry of a scope after one more decision. -/
def Pause.update (old p : Pause) : Pause :=
  { old with paused := p.paused, operatorId := p.operatorId, reason := p.reason, updatedAt := p.updatedAt }

@[simp] theorem Pause.update_scope (old p : Pause) : (old.update p).scope = old.scope := rfl

def Database.setPause (db : Database) (p : Pause) : Database :=
  if h : db.pauses.lookup p.scope = none then { db with pauses := db.pauses.insert p h }
  else { db with pauses := db.pauses.modify p.scope (·.update p) (fun old => old.update_scope p) }

/-- Pause new risk without revoking cancellation or recovery access. -/
def setPaused (st : Store) (db : Database) (fault readFault : Bool) (now : ℚ) (environment : String) (paused : Bool)
    (operatorId reason account : String) : Except Exc Bool × Store × Database :=
  match pauseScope environment account with
  | .error e => (.error e, st, db)
  | .ok scope =>
      if operatorId.isEmpty ∨ 128 < operatorId.length ∨ ¬ isPrintable operatorId then
        (.error (valueError "Operator identity is required and bounded"), st, db)
      else if (Text.strip reason.toList).isEmpty ∨ 2000 < reason.length ∨ ¬ isPrintable reason then
        (.error (valueError "A bounded printable reason is required"), st, db)
      else
        match transact st db fault (fun db =>
            .ok ((), db.setPause ⟨scope.1, scope.2, paused, operatorId, reason, now⟩)) with
        | (.error e, st', db') => (.error e, st', db')
        | (.ok (), st', db') =>
            match pauseState st' db' readFault scope with
            | (r, st'') => (r, st'', db')

/-- Refuse new risk in a scope that a pause covers. -/
def checkNewRisk (st : Store) (db : Database) (fault : Bool) (environment : Environment) (account : Account) :
    Except Exc Unit × Store :=
  match pauseState st db fault (environment, account) with
  | (.error e, st') => (.error e, st')
  | (.ok true, st') =>
      (.error (controlError ("New " ++ environment.text ++ " exposure is paused by the operator; " ++
        "cancellation and recovery remain available")), st')
  | (.ok false, st') => (.ok (), st')

end MoomooMcp.TradingControls
