import MoomooMcp.ExecutionStore

namespace MoomooMcp.Preparation

open ExecutionStore

def valueError (message : String) : Exc := ⟨.value, message, false⟩

/-- What may refuse a mutation around its order reading: `early` before it,
`instrument` after the visibility guard, `policy` after the quantity is known. -/
structure Assessment where
  early : Option Exc := none
  instrument : Option Exc := none
  policy : Option Exc := none

/-- What preparation settles: the request as it will be dispatched, the earlier
modifications whose effect the reading showed, and that reading. -/
structure Prepared where
  merged : Params
  observed : List OperationId := []
  reading : Option BrokerOrder := none

def require (failure : Option Exc) : Except Exc Unit :=
  match failure with
  | none => .ok ()
  | some e => .error e

def refuseIf (bad : Prop) [Decidable bad] (message : String) : Except Exc Unit :=
  if bad then .error (valueError message) else .ok ()

/-- Read the order a modification targets. -/
def fetchOrder (operation : String) (id : Option OrderId) (orders : Except Exc (List BrokerOrder)) :
    Except Exc BrokerOrder := do
  let records ← orders
  match records.filter (fun o => o.orderId = id) with
  | [] => .error (valueError (operation ++ ": order was not found in the account, so the modification " ++
      "cannot be checked against the configured limits."))
  | [order] => .ok order
  | _ => .error (valueError (operation ++ ": broker returned ambiguous evidence for order"))

def wholePositive (q : ℚ) : Bool := q.den = 1 ∧ 0 < q

/-- The quantity of the resulting order: the requested one, else the order's own. -/
def wholeQuantity (message : String) (requested existing : Option ℚ) : Except Exc ℚ :=
  match requested.or existing with
  | none => .error (valueError message)
  | some q => if wholePositive q then .ok q else .error (valueError message)

namespace Paper

def visible (order : BrokerOrder) (previous : Row) : Bool :=
  match previous.mergedRequest with
  | none => false
  | some expected => order.qty ≠ none ∧ order.price ≠ none ∧ order.qty = expected.qty ∧ order.price = expected.price

def requireModificationVisibility (order : BrokerOrder) : List Row → Except Exc (List OperationId)
  | [] => .ok []
  | previous :: pending =>
      if visible order previous then
        (requireModificationVisibility order pending).map (fun ids => previous.operationId :: ids)
      else
        .error (valueError ("Prior acknowledged paper modification " ++ previous.operationId ++
          " is not yet observed in broker quantity/price; dependent modification refused. " ++
          "No order was sent."))

def inScope (kind : Kind) (order : BrokerOrder) : Except Exc Unit := do
  refuseIf (order.timeInForce ≠ some .day ∨ order.orderType ≠ some .normal ∨ order.session ≠ some .rth)
    "Target order is outside verified DAY/regular-hours paper scope"
  refuseIf (kind = .modify ∧ order.orderStatus.elim false OrderStatus.terminalBroker = true)
    "Target order is terminal"

def equityScope (code : Option Code) (side : Option Side) : Except Exc Unit :=
  refuseIf (code.elim false Code.us = false ∨ ¬(side = some .buy ∨ side = some .sell))
    "Target is outside US equity paper scope"

def positivePrice (requested existing : Option ℚ) : Except Exc ℚ :=
  match requested.or existing with
  | none => .error (valueError "paper price must be a positive decimal string")
  | some p => if 0 < p then .ok p else .error (valueError "paper price must be positive")

def placement (c : Request) (row : Row) (a : Assessment) : Except Exc Prepared := do
  equityScope c.params.code c.params.trdSide
  require a.instrument
  let qty ← wholeQuantity "Paper quantity must be a positive whole number" c.params.qty none
  let price ← positivePrice c.params.price none
  require a.policy
  .ok ⟨{ code := c.params.code, qty := some qty, price := some price, trdSide := c.params.trdSide
         orderType := some .normal, timeInForce := some .day, session := some .rth, adjustLimit := some 0
         trdEnv := some .simulate, accId := some row.account, remark := row.orderTag }, [], none⟩

def cancellation (c : Request) (row : Row) (order : BrokerOrder) : Except Exc Prepared := do
  equityScope order.code order.trdSide
  .ok ⟨{ modifyOrderOp := some .cancel, orderId := c.params.orderId, qty := some 0, price := some 0
         trdEnv := some .simulate, accId := some row.account }, [], some order⟩

def modification (c : Request) (row : Row) (a : Assessment) (order : BrokerOrder) (observed : List OperationId) :
    Except Exc Prepared := do
  equityScope order.code order.trdSide
  require a.instrument
  let qty ← wholeQuantity "Paper quantity must be a positive whole number" c.params.qty order.qty
  let price ← positivePrice c.params.price order.price
  require a.policy
  .ok ⟨{ modifyOrderOp := some .normal, orderId := c.params.orderId, qty := some qty, price := some price
         adjustLimit := some 0, trdEnv := some .simulate, accId := some row.account }, observed, some order⟩

end Paper

namespace Real

/-- The first field of an earlier merged request that the order does not show. -/
def hidden (order : BrokerOrder) (expected : Params) : Option String :=
  if expected.qty ≠ none ∧ order.qty ≠ expected.qty then some "qty"
  else if expected.price ≠ none ∧ order.price ≠ expected.price then some "price"
  else none

def requireVisible (order : BrokerOrder) (previous : Row) : Except Exc Unit :=
  match previous.mergedRequest with
  | none => .error ⟨.type, "the JSON object must be str, bytes or bytearray, not NoneType", false⟩
  | some expected =>
      match hidden order expected with
      | none => .ok ()
      | some name =>
          .error (valueError ("Prior acknowledged REAL modification " ++ previous.operationId ++
            " is not yet observed in broker " ++ name ++ "; no order was sent"))

def observePending (order : BrokerOrder) : List Row → Except Exc (List OperationId)
  | [] => .ok []
  | previous :: pending => do
      requireVisible order previous
      let ids ← observePending order pending
      .ok (previous.operationId :: ids)

def ownTarget (account : Account) (order : BrokerOrder) : Except Exc Unit :=
  refuseIf (order.trdEnv.getD .real ≠ .real ∨ order.accId.getD account ≠ account)
    "Broker target account/environment disagrees with admission"

def validateTarget (row : Row) (order : BrokerOrder) (pending : List Row) : Except Exc (List OperationId) := do
  ownTarget row.account order
  observePending order pending

def exposing : Option ModifyOp → Bool
  | some .normal | some .enable => true
  | _ => false

def placement (c : Request) (row : Row) (a : Assessment) : Except Exc Prepared := do
  require a.policy
  .ok ⟨{ c.params with trdEnv := some .real, accId := some row.account, remark := row.orderTag }, [], none⟩

/-- A reducing modification reads no order and fills what was not given with zero. -/
def reducing (c : Request) (row : Row) : Prepared :=
  ⟨{ modifyOrderOp := c.params.modifyOrderOp.or (some .cancel), orderId := c.params.orderId
     qty := some (c.params.qty.getD 0), price := some (c.params.price.getD 0)
     adjustLimit := some (c.params.adjustLimit.getD 0), trdEnv := some .real, accId := some row.account }, [], none⟩

def modification (c : Request) (row : Row) (a : Assessment) (order : BrokerOrder) (observed : List OperationId) :
    Except Exc Prepared := do
  let qty ← wholeQuantity "qty must be a positive whole number" c.params.qty order.qty
  require a.policy
  .ok ⟨{ modifyOrderOp := c.params.modifyOrderOp, orderId := c.params.orderId, qty := some qty
         price := c.params.price.or order.price, adjustLimit := c.params.adjustLimit
         trdEnv := some .real, accId := some row.account }, observed, some order⟩

end Real

/-- A modification whose omitted fields come from an order reading, which must
therefore show every earlier modification. -/
def merges (env : Environment) (c : Request) : Bool :=
  match env, c.kind with
  | .simulate, .modify => true
  | .real, .modify => Real.exposing c.params.modifyOrderOp
  | _, _ => false

/-- The visibility guard over the pending modifications of the target. -/
def guard (env : Environment) (row : Row) (order : BrokerOrder) (pending : List Row) :
    Except Exc (List OperationId) :=
  match env with
  | .simulate => Paper.requireModificationVisibility order pending
  | .real => Real.validateTarget row order pending

def fetchTarget (env : Environment) (c : Request) (orders : Except Exc (List BrokerOrder)) :
    Except Exc BrokerOrder := do
  match env with
  | .simulate =>
      let order ← fetchOrder "paper modify_order" c.params.orderId orders
      Paper.inScope c.kind order
      .ok order
  | .real => fetchOrder "modify_order" c.params.orderId orders

/-- Preparation of a mutation that merges nothing. -/
def prepareDirect (env : Environment) (c : Request) (row : Row) (a : Assessment)
    (orders : Except Exc (List BrokerOrder)) : Except Exc Prepared := do
  require a.early
  match env, c.kind with
  | .simulate, .place | .simulate, .placeCombo => Paper.placement c row a
  | .simulate, .modify | .simulate, .cancel => Paper.cancellation c row (← fetchTarget .simulate c orders)
  | .real, .place | .real, .placeCombo => Real.placement c row a
  | .real, .modify | .real, .cancel => .ok (Real.reducing c row)

/-- Preparation of a merging modification, once its target was read and passed the guard. -/
def modification (env : Environment) (c : Request) (row : Row) (a : Assessment) (order : BrokerOrder)
    (observed : List OperationId) : Except Exc Prepared :=
  match env with
  | .simulate => Paper.modification c row a order observed
  | .real => Real.modification c row a order observed

/-- Preparation under the execution lock. Only a merging modification reads the journal. -/
def prepare (st : Store) (j : Journal) (c : Request) (row : Row) (a : Assessment)
    (orders : Except Exc (List BrokerOrder)) (fault : Fault) : Except Exc Prepared × Store :=
  if merges j.environment c then
    match require a.early, fetchTarget j.environment c orders with
    | .error e, _ => (.error e, st)
    | .ok _, .error e => (.error e, st)
    | .ok _, .ok order =>
        match read st fault (order.orderId.elim [] (j.unobservedModifications row.account)) with
        | (.error e, st') => (.error e, st')
        | (.ok pending, st') =>
            ((guard j.environment row order pending).bind (modification j.environment c row a order), st')
  else (prepareDirect j.environment c row a orders, st)

end MoomooMcp.Preparation
