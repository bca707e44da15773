import Mathlib.Data.List.Dedup
import MoomooMcp.ExecutionStore

namespace MoomooMcp.Accounting

open ExecutionStore

def evidenceError (message : String) : Exc := ⟨.value, message, false⟩

def number : Option ℚ → Except Exc ℚ
  | some value => .ok value
  | none => .error (evidenceError "Missing or invalid numeric broker evidence")

/-- Run a check over a list, in order, up to the first one that fails. -/
def checkAll {α : Type} (check : α → Except Exc Unit) : List α → Except Exc Unit
  | [] => .ok ()
  | x :: xs => (check x).bind (fun _ => checkAll check xs)

def refuseIf (bad : Prop) [Decidable bad] (message : String) : Except Exc Unit :=
  if bad then .error (evidenceError message) else .ok ()

def validIdentity : Option OrderId → Bool
  | some (.decimal digits) => 0 < (OrderId.decimal digits).value
  | _ => false

def observed (env : Environment) (account : Account) (o : BrokerOrder) : Except Exc Unit := do
  refuseIf (validIdentity o.orderId = false) "Missing broker order identity"
  refuseIf (o.trdEnv.getD env ≠ env ∨ o.accId.getD account ≠ account)
    "Broker query account/environment mismatch"

/-- The rows the order queries returned, once each of them is well formed. -/
def observations (env : Environment) (row : Row) (orders : List BrokerOrder) : Except Exc (List BrokerOrder) :=
  (checkAll (observed env row.account) orders).map (fun _ => orders)

def target (row : Row) : Option OrderId :=
  match row.kind with
  | .place | .placeCombo => row.brokerOrderId
  | .modify | .cancel => row.request.orderId

def correlates (row : Row) (o : BrokerOrder) : Bool :=
  (target row ≠ none ∧ o.orderId = target row) ∨ (row.orderTag ≠ none ∧ o.remark = row.orderTag)

def matchingOrders (row : Row) (orders : List BrokerOrder) : List BrokerOrder := orders.filter (correlates row)

structure LegIdentity where
  code : Code
  trdSide : Side
  qtyRatio : ℤ
  positionId : Option ℤ
  deriving DecidableEq, Repr

def legError : Exc := evidenceError "Invalid REAL combo leg evidence"

def positionIdentity : PositionId → Except Exc (Option ℤ)
  | .absent => .ok none
  | .number n => .ok (some n)
  | .malformed => .error (evidenceError "Invalid REAL combo position identity")

def legIdentity (leg : Leg) : Except Exc LegIdentity := do
  let code ← leg.code.elim (.error legError) .ok
  let ratio ← number leg.qtyRatio
  let side ← leg.trdSide.elim (.error legError) .ok
  if ¬(side = .buy ∨ side = .sell) ∨ ratio ≤ 0 ∨ ratio.den ≠ 1 then .error legError
  else
    let position ← positionIdentity leg.positionId
    .ok ⟨code, side, ratio.num, position⟩

def legIdentities (legs : Option (List Leg)) : Except Exc (List LegIdentity) :=
  match legs with
  | none | some [] => .error (evidenceError "Missing REAL combo leg evidence")
  | some legs => legs.mapM legIdentity

def remarkAgrees (row : Row) (o : BrokerOrder) : Except Exc Unit :=
  refuseIf (row.orderTag ≠ none ∧
      (¬(o.remark = none ∨ o.remark = some "" ∨ o.remark = row.orderTag) ∨
        (row.brokerOrderId = none ∧ o.remark ≠ row.orderTag)))
    "Broker remark disagrees with persisted tag"

def fieldAgrees {α : Type} [DecidableEq α] (field : BrokerOrder → Option α) (final o : BrokerOrder) :
    Except Exc Unit :=
  refuseIf (field final = none ∨ field o ≠ field final) "Broker observations disagree or lack required fields"

def numberAgrees (field : BrokerOrder → Option ℚ) (final o : BrokerOrder) : Except Exc Unit := do
  let left ← number (field o)
  let right ← number (field final)
  refuseIf (left ≠ right) "Broker observations disagree"

def numbersAgree (final o : BrokerOrder) : Except Exc Unit := do
  numberAgrees BrokerOrder.qty final o
  numberAgrees BrokerOrder.price final o
  numberAgrees BrokerOrder.dealtQty final o
  numberAgrees BrokerOrder.dealtAvgPrice final o

def sameOrder (orders : List BrokerOrder) : Except Exc BrokerOrder :=
  match orders with
  | [] => .error (evidenceError "Correlation identifies multiple broker orders")
  | final :: _ =>
      if (orders.map BrokerOrder.orderId).dedup.length ≠ 1 then
        .error (evidenceError "Correlation identifies multiple broker orders")
      else .ok final

def recordedIdentity (row : Row) (final : BrokerOrder) : Except Exc Unit :=
  refuseIf (row.brokerOrderId ≠ none ∧ final.orderId ≠ row.brokerOrderId)
    "Tag disagrees with recorded broker identity"

/-- The numbers of a located order, and its status. -/
structure Fill where
  status : OrderStatus
  qty : ℚ
  price : ℚ
  filled : ℚ
  average : ℚ

def fill (final : BrokerOrder) : Except Exc Fill := do
  let status ← final.orderStatus.elim
    (.error (evidenceError "Broker observations disagree or lack required fields")) .ok
  let qty ← number final.qty
  let price ← number final.price
  let filled ← number final.dealtQty
  let average ← number final.dealtAvgPrice
  .ok ⟨status, qty, price, filled, average⟩

def Fill.remaining (f : Fill) : ℚ := if f.status.terminalBroker then 0 else f.qty - f.filled

def sumPositions (env : Environment) (account : Account) (code : Code) : List Position → Except Exc ℚ
  | [] => .ok 0
  | p :: ps => do
      refuseIf (p.code ≠ some code) "Position query scope mismatch"
      refuseIf (p.trdEnv.getD env ≠ env ∨ p.accId.getD account ≠ account)
        "Position query account/environment mismatch"
      let qty ← number p.qty
      let rest ← sumPositions env account code ps
      .ok (qty + rest)

abbrev PositionQuery := Code → Except Exc (List Position)

def positions (env : Environment) (account : Account) (query : PositionQuery) :
    List Code → Except Exc (List (Code × ℚ))
  | [] => .ok []
  | code :: codes => do
      let items ← query code
      let total ← sumPositions env account code items
      let rest ← positions env account query codes
      .ok ((code, total) :: rest)

def merged (row : Row) : Params := row.mergedRequest.getD row.request

structure Accounted where
  receipt : Receipt
  facts : Facts
  resolution : Resolution

def accounted (env : Environment) (row : Row) (final : BrokerOrder) (f : Fill) (code : Option Code)
    (held : List (Code × ℚ)) (resolution : Resolution) : Accounted where
  receipt := ⟨final.orderId, final.orderStatus⟩
  facts := ⟨code, row.account, env, f.status, f.filled, f.average, f.remaining, held,
    row.kind = .place ∨ row.kind = .placeCombo⟩
  resolution := resolution

namespace Paper

def agrees (row : Row) (final o : BrokerOrder) : Except Exc Unit := do
  remarkAgrees row o
  fieldAgrees BrokerOrder.orderStatus final o
  fieldAgrees BrokerOrder.code final o
  fieldAgrees BrokerOrder.trdSide final o
  fieldAgrees BrokerOrder.orderType final o
  numbersAgree final o

def inScope (final : BrokerOrder) (f : Fill) : Except Exc Unit := do
  refuseIf (¬(f.status.terminalBroker = true ∨ f.status.activeBroker = true) ∨ f.qty ≤ 0 ∨ f.qty.den ≠ 1 ∨
      f.price ≤ 0 ∨ f.filled < 0 ∨ f.qty < f.filled ∨ f.average < 0)
    "Invalid broker status or fill evidence"
  refuseIf (final.code.elim false Code.us = false ∨
      ¬(final.trdSide = some .buy ∨ final.trdSide = some .sell) ∨ final.orderType ≠ some .normal)
    "Broker target outside paper scope"

def placementAgrees (row : Row) (final : BrokerOrder) (f : Fill) : Except Exc Unit := do
  refuseIf (final.code ≠ row.request.code ∨ final.trdSide ≠ row.request.trdSide)
    "Correlated placement disagrees with request"
  let qty ← number (merged row).qty
  refuseIf (f.qty ≠ qty) "Correlated placement disagrees with request"
  let price ← number (merged row).price
  refuseIf (f.price ≠ price) "Correlated placement disagrees with request"

/-- Whether the target shows the quantity and price of the modification. -/
def asked (row : Row) (f : Fill) : Except Exc Bool := do
  let qty ← number (merged row).qty
  if f.qty ≠ qty then .ok false
  else
    let price ← number (merged row).price
    .ok (f.price = price)

def resolution (row : Row) (final : BrokerOrder) (f : Fill) : Except Exc (Option Resolution) :=
  if row.kind = .place then (placementAgrees row final f).map (fun _ => some .brokerConfirmed)
  else if f.status.terminalBroker then .ok (some .terminalAccounted)
  else if row.kind = .modify then
    (asked row f).map (fun same => if same then some .currentStateAccounted else none)
  else .ok none

def account (row : Row) (orders : List BrokerOrder) (query : PositionQuery) : Except Exc (Option Accounted) := do
  let final ← sameOrder orders
  checkAll (agrees row final) orders
  recordedIdentity row final
  let f ← fill final
  inScope final f
  match ← resolution row final f with
  | none => .ok none
  | some resolution =>
      let held ← positions .simulate row.account query final.code.toList
      .ok (some (accounted .simulate row final f final.code held resolution))

end Paper

namespace Real

def combo (row : Row) : Bool := row.kind = .placeCombo

def legsAgree (final o : BrokerOrder) : Except Exc Unit := do
  let left ← legIdentities o.comboLegs
  let right ← legIdentities final.comboLegs
  refuseIf (left ≠ right) "Broker combo observations disagree"

def agrees (row : Row) (final o : BrokerOrder) : Except Exc Unit := do
  remarkAgrees row o
  fieldAgrees BrokerOrder.orderStatus final o
  fieldAgrees BrokerOrder.orderType final o
  if combo row then
    numbersAgree final o
    legsAgree final o
  else
    fieldAgrees BrokerOrder.code final o
    fieldAgrees BrokerOrder.trdSide final o
    numbersAgree final o

def inScope (row : Row) (final : BrokerOrder) (f : Fill) : Except Exc Unit := do
  refuseIf (¬(f.status.terminalBroker = true ∨ f.status.activeBroker = true) ∨ f.qty ≤ 0 ∨ f.filled < 0 ∨
      f.qty < f.filled ∨ (combo row = false ∧ f.average < 0))
    "Invalid broker status or fill evidence"
  refuseIf (combo row = false ∧ (final.code = none ∨ final.trdSide = none))
    "Missing REAL instrument/side evidence"

/-- A named field of the request is matched by every correlated row. -/
def evidenced {α : Type} [DecidableEq α] (name : String) (value : Option α) (field : BrokerOrder → Option α)
    (orders : List BrokerOrder) : Except Exc Unit :=
  match value with
  | none => .ok ()
  | some value =>
      checkAll (fun o => do
        refuseIf (field o = none) ("Missing broker " ++ name ++ " evidence")
        refuseIf (field o ≠ some value) ("Broker " ++ name ++ " disagrees with request")) orders

def placementAgrees (row : Row) (final : BrokerOrder) (f : Fill) (orders : List BrokerOrder) :
    Except Exc Unit := do
  let qty ← number (merged row).qty
  refuseIf (f.qty ≠ qty) "Correlated placement disagrees with request"
  let price ← number (merged row).price
  refuseIf (f.price ≠ price ∨ final.orderType ≠ (merged row).orderType)
    "Correlated placement disagrees with request"
  refuseIf (combo row = false ∧ (final.code ≠ row.request.code ∨ final.trdSide ≠ row.request.trdSide))
    "Correlated placement disagrees with request"
  if combo row then
    let left ← legIdentities final.comboLegs
    let right ← legIdentities (merged row).comboLegs
    refuseIf (left ≠ right) "Correlated combo legs disagree with request"
  evidenced "time_in_force" (merged row).timeInForce BrokerOrder.timeInForce orders
  evidenced "session" (merged row).session BrokerOrder.session orders
  evidenced "aux_price" (merged row).auxPrice BrokerOrder.auxPrice orders
  evidenced "trail_type" (merged row).trailType BrokerOrder.trailType orders
  evidenced "trail_value" (merged row).trailValue BrokerOrder.trailValue orders
  evidenced "trail_spread" (merged row).trailSpread BrokerOrder.trailSpread orders

/-- Whether a live target is in the state the modification asked for. -/
def asked (row : Row) (f : Fill) : Bool :=
  match row.kind, row.request.modifyOrderOp with
  | .modify, some .disable => f.status = .disabled
  | .modify, some .normal => shows
  | .modify, some .enable => ¬f.status = .disabled ∧ shows
  | _, _ => false
where
  shows : Bool := (∀ q ∈ (merged row).qty, q = f.qty) ∧ ∀ p ∈ (merged row).price, p = f.price

def resolution (row : Row) (final : BrokerOrder) (f : Fill) (orders : List BrokerOrder) :
    Except Exc (Option Resolution) :=
  if row.kind = .place ∨ row.kind = .placeCombo then
    (placementAgrees row final f orders).map (fun _ => some .brokerConfirmed)
  else if f.status.terminalBroker then .ok (some .terminalAccounted)
  else .ok (if asked row f then some .currentStateAccounted else none)

def codes (row : Row) (final : BrokerOrder) : Except Exc (List Code) :=
  if combo row then (legIdentities (merged row).comboLegs).map (fun legs => (legs.map LegIdentity.code).eraseDups)
  else .ok final.code.toList

def account (row : Row) (orders : List BrokerOrder) (query : PositionQuery) : Except Exc (Option Accounted) := do
  let final ← sameOrder orders
  checkAll (agrees row final) orders
  recordedIdentity row final
  let f ← fill final
  inScope row final f
  match ← resolution row final f orders with
  | none => .ok none
  | some resolution =>
      let held ← positions .real row.account query (← codes row final)
      .ok (some (accounted .real row final f (if combo row then none else final.code) held resolution))

end Real

def account (env : Environment) : Row → List BrokerOrder → PositionQuery → Except Exc (Option Accounted) :=
  match env with
  | .simulate => Paper.account
  | .real => Real.account

end MoomooMcp.Accounting
