import MoomooMcp.ControlContext
import MoomooMcp.PaperBoundary
import MoomooMcp.RealBoundary

namespace MoomooMcp.TradeExecution

open Intent OrderRules OrderContract Accounts PreDispatch TradingControls

abbrev Fields := List (String × Value)

/-- What an execution brings to the trading controls: the account it resolved, and the
facts of the order that it assessed. -/
structure Presented where
  account : Account
  facts : Option OrderFacts

def falsy : Value → Bool
  | .null | .bool false | .text "" | .list [] | .object [] => true
  | .number (.finite d) => d.coefficient = 0
  | _ => false

/-- `str(value or other)`. -/
def textOr (other : String) (v : Value) : String := if falsy v then other else v.str

/-- `validate_choice`. -/
def validateChoice (field : String) (allowed : List String) (v : Value) : Except Exc String :=
  let refusal := fun got => valueError (field ++ " must be one of ['" ++ "', '".intercalate allowed ++ "'], got " ++ got ++ ".")
  match v with
  | .text s => if allowed.contains (Text.normalize s) then .ok (Text.normalize s) else .error (refusal ("'" ++ s ++ "'"))
  | v => .error (refusal v.typeName)

namespace Real

/-- What a REAL mutation finds, from its admission to the controls. -/
structure World where
  boundary : RealBoundary.World
  /-- Whether a cap makes the facts of the instruments of a combination necessary. -/
  valued : Bool
  halt : Answer Unit
  accounts : Answer (List AccountRow)
  instruments : Option (List String → Answer (List InstrumentFacts))
  fetchOrder : Answer Fields
  assess : String → OrderFacts → Answer Unit
  /-- What is checked between a method and the controls: that the operation is active, the
  halt and the operator's pauses once more, and the quota. -/
  cleared : Answer Unit

variable (w : World) (p : Parameters)

def lookup : InstrumentLookup := w.instruments.map (fun find codes => (find codes).lift)

def connected : Except Exc Unit :=
  if w.boundary.connected then .ok () else .error ⟨.runtime, "Trade context not connected", false⟩

def account (market : Option String) : Except Exc Account :=
  resolveAccount w.boundary.policy w.accounts.lift w.boundary.grants p.trdEnv market p.accId true

def placeOrder : Except Exc Presented := do
  w.boundary.policy.checkWrite "place_order" p.trdEnv
  check (!RealBoundary.isText (Value.get p.others "price")) "REAL price must be numeric"
  validateSingleOrderRequest "place_order" (RealBoundary.placeValues p)
  let session ← normalizeOrderSession (p.session.getD "N/A") p.trdEnv
  let _ ← validateChoice "time_in_force" ["DAY", "GTC"] (Value.get p.others "time_in_force")
  connected w
  w.halt.lift
  let account ← account w p (getMarketFromCode (Value.get p.others "code").str)
  let facts ← singleLegFacts (lookup w) "place_order" (Value.get p.others "code") (Value.get p.others "order_type")
    (Value.get p.others "trd_side") (Value.get p.others "qty") (Value.get p.others "price")
    (Value.get p.others "aux_price") session
  (w.assess "place_order" facts).lift
  return ⟨account, some facts⟩

def placeComboOrder : Except Exc Presented := do
  w.boundary.policy.checkWrite "place_combo_order" p.trdEnv
  validateToken p
  validateOrderValues "place_combo_order" (RealBoundary.comboValues p)
  check (["NORMAL", "MARKET"].contains (Value.get p.others "order_type").str)
    "Combo submissions support NORMAL and MARKET only"
  check (["DAY", "GTC"].contains (Value.get p.others "time_in_force").str) "Combo submissions support DAY and GTC only"
  connected w
  let legs ← buildComboLegs (Value.get p.others "combo_legs")
  w.halt.lift
  let account ← account w p (legsMarket legs)
  let facts ← comboFacts (lookup w) w.valued "place_combo_order" legs (Value.get p.others "price")
    (Value.get p.others "qty") (Value.get p.others "order_type")
  (w.assess "place_combo_order" facts).lift
  return ⟨account, some facts⟩

/-- The facts of the order that results from a modification of `existing`. -/
def mergedFacts (operation : String) (existing : Fields) : Except Exc OrderFacts := do
  let qty ← wholeQuantity operation ((Value.get p.others "qty").orElse (Value.get existing "qty"))
  let price := (Value.get p.others "price").orElse (Value.get existing "price")
  let orderType := textOr "NORMAL" (Value.get existing "order_type")
  let aux := (← optionalFloat (Value.get existing "aux_price")).elim .null (fun d => .number (.finite d))
  validateOrderValues operation
    { orderType := .text orderType, qty := .number (.finite ⟨qty, 0⟩), price := price, auxPrice := aux }
  let number ← floatOrNone price
  let facts ← singleLegFacts (lookup w) operation (.text (Value.get existing "code").str) (.text orderType)
    (.text (textOr "" (Value.get existing "trd_side"))) (.number (.finite ⟨qty, 0⟩)) (number.elim .null .number) aux "N/A"
  (w.assess operation facts).lift
  return facts

def modifyOrder : Except Exc Presented := do
  let operation := "modify_order (" ++ RealBoundary.requestedOp p ++ ")"
  let exposing := RealBoundary.exposingOps.contains (RealBoundary.requestedOp p)
  w.boundary.policy.checkWrite operation p.trdEnv
  connected w
  if exposing then w.halt.lift
  let account ← account w p none
  if exposing then
    let existing ← w.fetchOrder.lift
    return ⟨account, some (← mergedFacts w p operation existing)⟩
  else return ⟨account, none⟩

def cancelOrder : Except Exc Presented := do
  w.boundary.policy.checkWrite "cancel_order" p.trdEnv
  connected w
  return ⟨← account w p none, none⟩

/-- The public method that an admitted operation calls. -/
def call (method : String) : Except Exc Presented :=
  if method = "place_order" then placeOrder w p
  else if method = "place_combo_order" then placeComboOrder w p
  else if method = "modify_order" then modifyOrder w p
  else cancelOrder w p

/-- A REAL mutation up to the controls. An operation that has a row already gets none. -/
def presented (method : String) : Except Exc (Option Presented) := do
  RealBoundary.opening w.boundary method
  let kind ← RealBoundary.front w.boundary method p
  if (← RealBoundary.rowOf w.boundary.late w.boundary.lookup).isSome then return none
  if (← RealBoundary.rowOf w.boundary.lateAgain w.boundary.lookupAgain).isSome then return none
  let market ← RealBoundary.preflight w.boundary method kind p
  let account ← RealBoundary.account w.boundary p market
  let _ ← RealIdentity.canonicalRealRequest account kind (RealBoundary.original p)
  if (← w.boundary.insert.lift).isSome then return none
  let found ← call w { p with trdEnv := "REAL", accId := toString account } method
  w.cleared.lift
  return some found

end Real

namespace Paper

/-- A paper mutation up to the controls. An operation that has a row already gets none. -/
def presented (w : PaperBoundary.World) (p : Parameters) (method : String) : Except Exc (Option Presented) := do
  let (kind, fields) ← PaperRequests.paperRequest w.policy method p
  PaperBoundary.opening w kind
  PaperBoundary.front w kind fields p
  if w.late.isSome then return none
  if (← stored w.lookup).isSome then return none
  if (← PaperBoundary.admission w kind fields p).isSome then return none
  let account ← paperAccount w.policy w.accounts.lift w.grants p.accId
  w.readyAgain.lift
  let facts ← PaperBoundary.prepare w kind fields
  w.protect.lift
  if kind ≠ .cancel then w.newRisk.lift
  return some ⟨account, facts⟩

end Paper

/-- The two executors of one service, with its controls. -/
structure World where
  real : Real.World
  paper : PaperBoundary.World
  controls : ControlContext.Service
  valuation : Option ControlContext.Valuation

def presented (w : World) (method : String) (p : Parameters) : Except Exc (Option Presented) :=
  match Environment.ofText p.trdEnv with
  | some .real => Real.presented w.real p method
  | some .simulate => Paper.presented w.paper p method
  | none => w.paper.policy.checkWrite method p.trdEnv >>= fun _ => .ok none

/-- `check_dispatch_controls`, with what the execution presents. -/
def reservation (w : World) (method : String) (p : Parameters) (approvalId : Option RequestId) (found : Presented) :
    Except Exc (Option Reservation) := do
  let contract ← found.facts.mapM contractView
  let active : ControlContext.Active :=
    { method := method, parameters := p, approvalId := approvalId, contract := contract, valuation := w.valuation }
  let env := (Environment.ofText p.trdEnv).getD .real
  return (← ControlContext.checkDispatchControls w.controls (some active) found.account env).map
    (fun checked => checked.1.reservation w.controls.policy checked.2)

/-- What a mutation asks the controls to consume, where it gets that far. -/
def execute (w : World) (method : String) (p : Parameters) (approvalId : Option RequestId) :
    Except Exc (Option Reservation) := do
  match ← presented w method p with
  | none => return none
  | some found => reservation w method p approvalId found

end MoomooMcp.TradeExecution
