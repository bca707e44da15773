import MoomooMcp.DispatchLease
import MoomooMcp.Metered
import MoomooMcp.TradeExecution
import MoomooMcp.TradePreparation

namespace MoomooMcp.SdkCalls

open Intent OrderRules OrderContract Accounts PreDispatch BrokerDispatch

abbrev Fields := List (String × Value)

/-- A call of the broker's SDK, with the arguments that its quota depends on. -/
abbrev Call := String × Arguments

/-- A computation of the service, with the calls that it makes through the dispatcher. Those
that no quota counts are left out. -/
abbrev Run := Metered Call Exc

def plain (account : Option Account) : Arguments := ⟨false, false, account.map (fun a => (a : ℤ))⟩

def snapshot : Call := ("get_market_snapshot", plain none)

/-- `_fetch_order` bypasses the cache. -/
def target (account : Account) : Call := ("order_list_query", { plain (some account) with refreshCache := true })

def maximum (account : Account) : Call := ("acctradinginfo_query", plain (some account))

def impact (account : Account) : Call := ("comboorder_tradinginfo_query", plain (some account))

def unlocking : Call := ("unlock_trade", plain none)

def sending (operation : WriteOperation) (account : Account) : Call := (operation.text, plain (some account))

/-- What begins with a lookup of instruments, for which there is one snapshot. -/
def quoting {α : Type} (instruments : Option (List String → Answer (List InstrumentFacts))) (y : Except Exc α) : Run α :=
  .asking instruments.isSome snapshot y

@[simp] theorem result_quoting {α : Type} {instruments : Option (List String → Answer (List InstrumentFacts))}
    {y : Except Exc α} : (quoting instruments y).result = y := rfl

namespace Paper

open PaperBoundary

def operation (kind : Kind) : WriteOperation := if kind = .place then .placeOrder else .modifyOrder

variable (w : World) (kind : Kind) (fields : Fields) (account : Account)

def review : Run (Option (Fields × InstrumentFacts)) := do
  check w.connected "Trade context not connected"
  let order ← Metered.asking (decide (kind ≠ .place)) (target account) (targetOrder w kind fields)
  check ("US.".toList.isPrefixOf (Value.get order "code").str.toList &&
    ["BUY", "SELL"].contains (Value.get order "trd_side").str) "Target is outside US equity paper scope"
  if kind = .cancel then return none
  else return some (order, ← quoting w.instruments (verifiedInstrument w (Value.get order "code").str))

def prepare : Run (Option OrderFacts) := do
  match ← review w kind fields account with
  | none => return none
  | some (order, instrument) => return some (← checkTerms w kind fields order instrument)

def dispatchChecks : Run Unit := do
  w.readyAgain.lift
  let _ ← prepare w kind fields account
  w.protect.lift
  (if kind ≠ .cancel then w.newRisk.lift else .ok () : Except Exc Unit)
  w.dispatchControls.lift
  w.confirmControls.lift
  w.markDispatch.lift

/-- The admitted operation with its write, whose outcome is recorded whatever it is. -/
def dispatch : Run Unit := do
  dispatchChecks w kind fields account
  Metered.call (sending (operation kind) account) (.ok ())

/-- The checks before the first call: nothing is to be sent for an operation that is known. -/
def entered (method : String) (p : Parameters) : Except Exc (Option (Kind × Fields × Account)) := do
  let (kind, fields) ← PaperRequests.paperRequest w.policy method p
  opening w kind
  front w kind fields p
  if w.late.isSome then return none
  if (← stored w.lookup).isSome then return none
  if (← admission w kind fields p).isSome then return none
  return some (kind, fields, ← paperAccount w.policy w.accounts.lift w.grants p.accId)

def run (method : String) (p : Parameters) : Run Passed := do
  match ← entered w method p with
  | none => return .storedResult
  | some (kind, fields, account) =>
      dispatch w kind fields account
      return .writeStarts

/-- What a mutation passes between the controls and its write. -/
def passed : Except Exc Unit := do
  w.dispatchControls.lift
  w.confirmControls.lift
  w.markDispatch.lift

variable {w kind fields account} {method : String} {p : Parameters}

theorem review_result : (review w kind fields account).result = PaperBoundary.review w kind fields := by
  rw [review, PaperBoundary.review]
  simp only [Metered.result_bind, Metered.result_lift, Metered.result_asking]
  refine bind_congr fun _ => bind_congr fun order => bind_congr fun _ => ?_
  split_ifs <;> simp

theorem prepare_result : (prepare w kind fields account).result = PaperBoundary.prepare w kind fields := by
  rw [prepare, PaperBoundary.prepare, Metered.result_bind, review_result]
  refine bind_congr fun found => ?_
  cases found <;> simp

theorem dispatch_result : (dispatch w kind fields account).result = PaperBoundary.dispatchChecks w kind fields := by
  rw [dispatch, Metered.result_bind, dispatchChecks, PaperBoundary.dispatchChecks]
  simp only [Metered.result_bind, Metered.result_lift, Metered.result_call, prepare_result, bind_assoc]
  refine bind_congr fun _ => bind_congr fun _ => bind_congr fun _ => ?_
  split_ifs
  all_goals exact bind_congr fun _ => bind_congr fun _ => bind_congr fun _ => bind_pure w.markDispatch.lift

/-- Without its calls a run is what the controls are brought, and what then is passed. -/
theorem run_result : (run w method p).result = TradeExecution.Paper.presented w p method >>= fun found =>
    if found.isSome then passed w >>= fun _ => pure .writeStarts else pure .storedResult := by
  rw [run, entered, TradeExecution.Paper.presented]
  simp only [Metered.result_bind, Metered.result_lift, bind_assoc]
  refine bind_congr fun request => bind_congr fun _ => bind_congr fun _ => ?_
  by_cases hlate : w.late.isSome = true
  · simp [hlate]
  rw [if_neg hlate, if_neg hlate]
  simp only [bind_assoc]
  refine bind_congr fun found => ?_
  by_cases hfound : found.isSome = true
  · simp [hfound]
  rw [if_neg hfound, if_neg hfound]
  simp only [bind_assoc]
  refine bind_congr fun reserved => ?_
  by_cases hreserved : reserved.isSome = true
  · simp [hreserved]
  rw [if_neg hreserved, if_neg hreserved]
  simp only [bind_assoc, pure_bind, Metered.result_bind, dispatch_result]
  refine bind_congr fun account => ?_
  rw [PaperBoundary.dispatchChecks, passed]
  simp only [bind_assoc]
  refine bind_congr fun _ => bind_congr fun facts => bind_congr fun _ => ?_
  by_cases hcancel : request.1 = .cancel
  · simp [hcancel]
  · simp [hcancel]

end Paper

namespace Real

open TradeExecution (Presented textOr validateChoice)
open TradeExecution.Real

def operation (method : String) : WriteOperation :=
  if method = "place_order" then .placeOrder
  else if method = "place_combo_order" then .placeComboOrder
  else .modifyOrder

variable (w : World) (p : Parameters)

def placeOrder : Run Presented := do
  w.boundary.policy.checkWrite "place_order" p.trdEnv
  check (!RealBoundary.isText (Value.get p.others "price")) "REAL price must be numeric"
  validateSingleOrderRequest "place_order" (RealBoundary.placeValues p)
  let session ← normalizeOrderSession (p.session.getD "N/A") p.trdEnv
  let _ ← validateChoice "time_in_force" ["DAY", "GTC"] (Value.get p.others "time_in_force")
  connected w
  w.halt.lift
  let account ← account w p (getMarketFromCode (Value.get p.others "code").str)
  let facts ← quoting w.instruments (singleLegFacts (lookup w) "place_order" (Value.get p.others "code")
    (Value.get p.others "order_type") (Value.get p.others "trd_side") (Value.get p.others "qty")
    (Value.get p.others "price") (Value.get p.others "aux_price") session)
  (w.assess "place_order" facts).lift
  return ⟨account, some facts⟩

def placeComboOrder : Run Presented := do
  w.boundary.policy.checkWrite "place_combo_order" p.trdEnv
  validateToken p
  validateOrderValues "place_combo_order" (RealBoundary.comboValues p)
  check (["NORMAL", "MARKET"].contains (Value.get p.others "order_type").str)
    "Combo submissions support NORMAL and MARKET only"
  check (["DAY", "GTC"].contains (Value.get p.others "time_in_force").str) "Combo submissions support DAY and GTC only"
  connected w
  let legs ← buildComboLegs (Value.get p.others "combo_legs")
  w.halt.lift
  let account ← account w p (legsMarket legs)
  let facts ← Metered.asking (w.valued && w.instruments.isSome) snapshot (comboFacts (lookup w) w.valued
    "place_combo_order" legs (Value.get p.others "price") (Value.get p.others "qty") (Value.get p.others "order_type"))
  (w.assess "place_combo_order" facts).lift
  return ⟨account, some facts⟩

def mergedFacts (operation : String) (existing : Fields) : Run OrderFacts := do
  let qty ← wholeQuantity operation ((Value.get p.others "qty").orElse (Value.get existing "qty"))
  let price := (Value.get p.others "price").orElse (Value.get existing "price")
  let orderType := textOr "NORMAL" (Value.get existing "order_type")
  let aux := (← optionalFloat (Value.get existing "aux_price")).elim .null (fun d => .number (.finite d))
  validateOrderValues operation
    { orderType := .text orderType, qty := .number (.finite ⟨qty, 0⟩), price := price, auxPrice := aux }
  let number ← floatOrNone price
  let facts ← quoting w.instruments (singleLegFacts (lookup w) operation (.text (Value.get existing "code").str)
    (.text orderType) (.text (textOr "" (Value.get existing "trd_side"))) (.number (.finite ⟨qty, 0⟩))
    (number.elim .null .number) aux "N/A")
  (w.assess operation facts).lift
  return facts

def modifyOrder : Run Presented := do
  let operation := "modify_order (" ++ RealBoundary.requestedOp p ++ ")"
  let exposing := RealBoundary.exposingOps.contains (RealBoundary.requestedOp p)
  w.boundary.policy.checkWrite operation p.trdEnv
  connected w
  (if exposing then w.halt.lift else .ok () : Except Exc Unit)
  let account ← account w p none
  if exposing then
    let existing ← Metered.call (target account) w.fetchOrder.lift
    return ⟨account, some (← mergedFacts w p operation existing)⟩
  else return ⟨account, none⟩

def cancelOrder : Run Presented := do
  w.boundary.policy.checkWrite "cancel_order" p.trdEnv
  connected w
  return ⟨← account w p none, none⟩

def invoke (method : String) : Run Presented :=
  if method = "place_order" then placeOrder w p
  else if method = "place_combo_order" then placeComboOrder w p
  else if method = "modify_order" then modifyOrder w p
  else cancelOrder w p

/-- The checks before the first call: nothing is to be sent for an operation that is known. -/
def entered (method : String) : Except Exc (Option Account) := do
  RealBoundary.opening w.boundary method
  let kind ← RealBoundary.front w.boundary method p
  if (← RealBoundary.rowOf w.boundary.late w.boundary.lookup).isSome then return none
  if (← RealBoundary.rowOf w.boundary.lateAgain w.boundary.lookupAgain).isSome then return none
  let market ← RealBoundary.preflight w.boundary method kind p
  let account ← RealBoundary.account w.boundary p market
  let _ ← RealIdentity.canonicalRealRequest account kind (RealBoundary.original p)
  if (← w.boundary.insert.lift).isSome then return none
  return some account

/-- An admitted mutation up to the controls. -/
def admitted (method : String) (account : Account) : Run Presented := do
  let found ← invoke w { p with trdEnv := "REAL", accId := toString account } method
  w.cleared.lift
  return found

/-- What a mutation meets between the controls and its write. -/
structure Gate where
  /-- Whether the gateway is unlocked for the write alone. -/
  jit : Bool
  controls : Answer Unit
  unlock : Answer Unit
  mark : Answer Unit

variable (g : Gate)

def marked (operation : WriteOperation) (account : Account) : Run Unit := do
  g.mark.lift
  Metered.call (sending operation account) (.ok ())

/-- The write, whose outcome is recorded whatever it is. Where the gateway was unlocked for
it, it is locked again whatever came of it. -/
def send (operation : WriteOperation) (account : Account) : Run Unit := do
  g.controls.lift
  if g.jit then
    Metered.call unlocking g.unlock.lift
    (marked g operation account).andFinally (Metered.call unlocking (.ok ()) : Run Unit)
  else marked g operation account

def run (method : String) : Run Passed := do
  match ← entered w p method with
  | none => return .storedResult
  | some account =>
      let found ← admitted w p method account
      send g (operation method) found.account
      return .writeStarts

/-- What a mutation passes at its gate. -/
def Gate.passed : Except Exc Unit := do
  g.controls.lift
  (if g.jit then g.unlock.lift else .ok () : Except Exc Unit)
  g.mark.lift

variable {w p g} {method operation : String} {existing : Fields} {sent : WriteOperation} {account : Account}

theorem placeOrder_result : (placeOrder w p).result = TradeExecution.Real.placeOrder w p := by
  rw [placeOrder, TradeExecution.Real.placeOrder]
  simp only [Metered.result_bind, Metered.result_lift, Metered.result_pure, result_quoting]

theorem placeComboOrder_result : (placeComboOrder w p).result = TradeExecution.Real.placeComboOrder w p := by
  rw [placeComboOrder, TradeExecution.Real.placeComboOrder]
  simp only [Metered.result_bind, Metered.result_lift, Metered.result_pure, Metered.result_asking]

theorem mergedFacts_result :
    (mergedFacts w p operation existing).result = TradeExecution.Real.mergedFacts w p operation existing := by
  rw [mergedFacts, TradeExecution.Real.mergedFacts]
  simp only [Metered.result_bind, Metered.result_lift, Metered.result_pure, result_quoting]

theorem modifyOrder_result : (modifyOrder w p).result = TradeExecution.Real.modifyOrder w p := by
  rw [modifyOrder, TradeExecution.Real.modifyOrder]
  simp only [Metered.result_bind, Metered.result_lift]
  refine bind_congr fun _ => bind_congr fun _ => ?_
  split_ifs with hexposing
  · simp [mergedFacts_result]
  · simp
    rfl

theorem cancelOrder_result : (cancelOrder w p).result = TradeExecution.Real.cancelOrder w p := by
  rw [cancelOrder, TradeExecution.Real.cancelOrder]
  simp only [Metered.result_bind, Metered.result_lift, Metered.result_pure]

theorem invoke_result : (invoke w p method).result = TradeExecution.Real.call w p method := by
  rw [invoke, TradeExecution.Real.call]
  split_ifs
  · exact placeOrder_result
  · exact placeComboOrder_result
  · exact modifyOrder_result
  · exact cancelOrder_result

theorem marked_result : (marked g sent account).result = g.mark.lift := by
  rw [marked, Metered.result_bind, Metered.result_lift]
  exact bind_pure g.mark.lift

theorem send_result : (send g sent account).result = g.passed := by
  rw [send, Gate.passed, Metered.result_bind, Metered.result_lift]
  refine bind_congr fun _ => ?_
  split_ifs with hjit
  · simp [marked_result]
  · exact marked_result

/-- Without its calls a run is what the controls are brought, and what then is passed. -/
theorem run_result : (run w p g method).result = TradeExecution.Real.presented w p method >>= fun found =>
    if found.isSome then g.passed >>= fun _ => pure .writeStarts else pure .storedResult := by
  rw [run, entered, TradeExecution.Real.presented]
  simp only [Metered.result_bind, Metered.result_lift, bind_assoc]
  refine bind_congr fun _ => bind_congr fun kind => bind_congr fun late => ?_
  split_ifs with hlate
  · simp
  simp only [bind_assoc]
  refine bind_congr fun again => ?_
  split_ifs with hagain
  · simp
  simp only [bind_assoc]
  refine bind_congr fun market => bind_congr fun account => bind_congr fun _ => bind_congr fun inserted => ?_
  split_ifs with hinserted
  · simp
  · simp [admitted, invoke_result, send_result]

end Real

/-- A mutation of the trade service, as the executor of its environment runs it. -/
def write (w : TradeExecution.World) (g : Real.Gate) (method : String) (p : Parameters) : Run Passed :=
  match Environment.ofText p.trdEnv with
  | some .real => Real.run w.real p g method
  | some .simulate => Paper.run w.paper method p
  | none => do
      w.paper.policy.checkWrite method p.trdEnv
      return .storedResult

/-- What a mutation passes that was brought to the controls. -/
def passed (w : TradeExecution.World) (g : Real.Gate) (p : Parameters) : Except Exc Unit :=
  if Environment.ofText p.trdEnv = some .real then g.passed else Paper.passed w.paper

/-- Without its calls a run is the execution up to the controls, and what then is passed. -/
theorem write_result (w : TradeExecution.World) (g : Real.Gate) (method : String) (p : Parameters) :
    (write w g method p).result = TradeExecution.presented w method p >>= fun found =>
      if found.isSome then passed w g p >>= fun _ => pure .writeStarts else pure .storedResult := by
  rw [write, TradeExecution.presented, passed]
  cases Environment.ofText p.trdEnv with
  | none => simp only [Metered.result_bind, bind_assoc]; rfl
  | some env =>
      cases env with
      | real => exact Real.run_result
      | simulate => exact Paper.run_result

namespace Review

open TradePreparation TradingControls

variable (w : World) (p : Parameters)

def singleFacts (operation : String) : Run OrderFacts := do
  let numeric ← toFloat (Value.get p.others "price")
  let qty ← wholeQuantity operation (Value.get p.others "qty")
  validateSingleOrderRequest operation { RealBoundary.placeValues p with qty := whole qty, price := .number numeric }
  let facts ← quoting w.instruments (singleLegFacts (lookupOf w.instruments) operation (Value.get p.others "code")
    (Value.get p.others "order_type") (Value.get p.others "trd_side") (whole qty) (Value.get p.others "price")
    (Value.get p.others "aux_price") (p.session.getD "N/A"))
  check (sides.contains (Value.get p.others "trd_side").str) "trd_side must be BUY or SELL"
  check (timesInForce.contains ((Value.get p.others "time_in_force").orElse (.text "DAY")).str)
    "Only DAY and GTC are supported for these stock orders"
  (w.assess operation facts).lift
  return facts

/-- `single_preview`. What the maximum quantities come to is part of what is observed. -/
def singlePreview : Run Review := do
  let (environment, account) ← resolveReadAccount w.accounts.lift w.grants p.trdEnv p.accId
  let session ← normalizeOrderSession (p.session.getD "N/A") environment
  let facts ← singleFacts w { p with trdEnv := environment, accId := toString account, session := some session }
    "preview_order"
  Metered.call (maximum account) (.ok ())
  let contract ← contractView facts
  return ⟨some contract, ← (w.observe (some contract)).lift⟩

/-- `int(request["acc_id"])`, of a request that names its account. -/
def named : Account := Text.toNat p.accId

def comboReview : Run Review := do
  (if p.trdEnv ≠ "REAL" then .error (controlError "Paper combo execution is unsupported") else .ok () : Except Exc Unit)
  check (["NORMAL", "MARKET"].contains (Value.get p.others "order_type").str)
    "Combo submissions support NORMAL and MARKET only"
  check (timesInForce.contains (Value.get p.others "time_in_force").str) "Combo submissions support DAY and GTC only"
  let legs ← buildComboLegs (Value.get p.others "combo_legs")
  let facts ← Metered.asking (w.valued && w.instruments.isSome) snapshot (comboFacts (lookupOf w.instruments) w.valued
    "prepare combo" legs (Value.get p.others "price") (Value.get p.others "qty") (Value.get p.others "order_type"))
  (w.assess "prepare combo" facts).lift
  let contract ← contractView facts
  Metered.call (impact (named p)) (.ok ())
  return ⟨some contract, ← (w.observe (some contract)).lift⟩

def mutationContract (method : String) : Run (Option Contract) := do
  let existing ← Metered.call (target (named p)) w.fetchOrder.lift
  if exposes method p then
    let facts ← singleFacts w (← effective p existing) "prepare modification"
    return some (← contractView facts)
  else return none

def mutationReview (method : String) : Run Review := do
  let contract ← mutationContract w p method
  return ⟨contract, ← (w.observe contract).lift⟩

def review (method : String) : Run Review :=
  if method = "place_order" then singlePreview w p
  else if method = "place_combo_order" then comboReview w p
  else mutationReview w p method

/-- `prepare_request`, before it is stored. -/
def prepareRequest (st : Store) (method : String) : Run (Parameters × Review) := do
  let request ← preparedParameters w st method p
  return (request, ← review w request method)

variable {w p} {operation method : String}

theorem singleFacts_result : (singleFacts w p operation).result = TradePreparation.singleFacts w operation p := by
  rw [singleFacts, TradePreparation.singleFacts]
  simp only [Metered.result_bind, Metered.result_lift, Metered.result_pure, result_quoting]

theorem map_some_bind {α β : Type} {y : Except Exc α} {f : Option α → Except Exc β} :
    y.map some >>= f = y >>= fun a => f (some a) := by
  cases y <;> rfl

theorem mutationContract_result :
    (mutationContract w p method).result = TradePreparation.mutationReview w method p := by
  rw [mutationContract, TradePreparation.mutationReview, Metered.result_bind, Metered.result_call]
  refine bind_congr fun existing => ?_
  split_ifs with hexposes
  · simp [singleFacts_result]
  · simp

/-- Without its calls a review is the one that is stored. -/
theorem review_result : (review w p method).result = TradePreparation.review w method p := by
  rw [review, TradePreparation.review, reviewedContract]
  split_ifs with hplace hcombo
  · rw [singlePreview, map_some_bind, TradePreparation.singlePreview]
    simp only [Metered.result_bind, Metered.result_lift, Metered.result_pure, Metered.result_call, singleFacts_result,
      bind_assoc]
    rfl
  · rw [comboReview, map_some_bind, TradePreparation.comboReview]
    simp only [Metered.result_bind, Metered.result_lift, Metered.result_pure, Metered.result_call, Metered.result_asking]
    split_ifs with henvironment
    · rfl
    · simp only [bind_assoc]
      rfl
  · rw [mutationReview]
    simp only [Metered.result_bind, Metered.result_lift, Metered.result_pure, mutationContract_result]

end Review

end MoomooMcp.SdkCalls
