import MoomooMcp.RealBoundary

namespace MoomooMcp.TradePreparation

open Intent OrderRules OrderContract Accounts ClientAuthorization PreDispatch TradingControls

abbrev Fields := List (String × Value)

/-- The journal of one environment, under the lookup of the operation to be prepared. -/
structure Journal where
  epoch : String
  lookup : Except String (Option StoredRow)

/-- What a preparation finds: its configuration and the answers of the other components. -/
structure World where
  policy : AccountPolicy
  grants : Grants
  /-- Whether a cap makes the facts of the instruments of a combination necessary. -/
  valued : Bool
  configured : Bool
  real : Option Journal
  paper : Option Journal
  accounts : Answer (List AccountRow)
  instruments : Option (List String → Answer (List InstrumentFacts))
  fetchOrder : Answer Fields
  assess : String → OrderFacts → Answer Unit
  /-- The review around a contract as a text, where all that it shows can be read. -/
  observe : Option Contract → Answer String

/-- The instrument lookup of a service, as its answers reach the code. -/
def lookupOf (instruments : Option (List String → Answer (List InstrumentFacts))) : InstrumentLookup :=
  instruments.map (fun find codes => (find codes).lift)

def World.executor (w : World) (environment : String) : Option Journal := if environment = "REAL" then w.real else w.paper

def mutations : List String := ["place_order", "place_combo_order", "modify_order", "cancel_order"]

/-- The parameters that a preparation is made for, once the defaults are bound. -/
def boundParameters (method : String) (p : Parameters) : Except Exc Parameters := do
  check (mutations.contains method) "Preparation supports individual trading mutations only"
  check (p.others.lookup "approval_id").isNone "A new prepared request cannot supply approval_id"
  let environment := Text.normalize p.trdEnv
  if method = "modify_order" then
    return { p with trdEnv := environment, modifyOrderOp := p.modifyOrderOp.map Text.normalize }
  else if method = "place_order" then do
    let selected ← normalizeOrderSession (p.session.getD "N/A") environment
    return { p with trdEnv := environment, session := some (if environment = "REAL" then selected else "N/A") }
  else return { p with trdEnv := environment }

/-- The part of the validation that reads the journal. -/
def checkJournal (w : World) (p : Parameters) : Except Exc Unit :=
  match w.executor p.trdEnv with
  | none => .error (controlError "Preparation requires the current environment journal epoch")
  | some journal => do
      if p.admissionEpoch ≠ some journal.epoch then
        .error (controlError "Preparation requires the current environment journal epoch")
      match ← stored journal.lookup with
      | some _ => .error (controlError "Operation is already admitted; inspect or retry its journal result")
      | none => return ()

/-- Validate local controls, identity and executor scope before broker reads. -/
def validatePreparation (w : World) (st : Store) (method : String) (p : Parameters) : Except Exc Unit := do
  if st.closed || st.failed then .error (controlError "Durable trading controls are unavailable")
  w.policy.checkWrite method p.trdEnv
  validateToken p
  checkJournal w p
  if p.trdEnv = "REAL" then RealBoundary.validateRealRequest method p
  else
    let (kind, fields) ← PaperRequests.paperParameters method p
    PaperRequests.schema kind fields

def preparationMarket (method : String) (p : Parameters) : Except Exc (Option String) :=
  if method = "place_order" then .ok (getMarketFromCode (Value.get p.others "code").str)
  else if method = "place_combo_order" then (buildComboLegs (Value.get p.others "combo_legs")).map legsMarket
  else .ok none

def whole (n : ℕ) : Value := .number (.finite ⟨n, 0⟩)

def sides : List String := ["BUY", "SELL"]

def timesInForce : List String := ["DAY", "GTC"]

/-- `_single_facts`: the facts of an order of one leg, whose quantity may be a float. -/
def singleFacts (w : World) (operation : String) (p : Parameters) : Except Exc OrderFacts := do
  let numeric ← toFloat (Value.get p.others "price")
  let qty ← wholeQuantity operation (Value.get p.others "qty")
  validateSingleOrderRequest operation { RealBoundary.placeValues p with qty := whole qty, price := .number numeric }
  let facts ← singleLegFacts (lookupOf w.instruments) operation (Value.get p.others "code")
    (Value.get p.others "order_type") (Value.get p.others "trd_side") (whole qty) (Value.get p.others "price")
    (Value.get p.others "aux_price") (p.session.getD "N/A")
  check (sides.contains (Value.get p.others "trd_side").str) "trd_side must be BUY or SELL"
  check (timesInForce.contains ((Value.get p.others "time_in_force").orElse (.text "DAY")).str)
    "Only DAY and GTC are supported for these stock orders"
  (w.assess operation facts).lift
  return facts

/-- `single_preview`, as far as the contract. -/
def singlePreview (w : World) (p : Parameters) : Except Exc Contract := do
  let (environment, account) ← resolveReadAccount w.accounts.lift w.grants p.trdEnv p.accId
  let session ← normalizeOrderSession (p.session.getD "N/A") environment
  let facts ← singleFacts w "preview_order"
    { p with trdEnv := environment, accId := toString account, session := some session }
  contractView facts

def comboReview (w : World) (p : Parameters) : Except Exc Contract := do
  if p.trdEnv ≠ "REAL" then .error (controlError "Paper combo execution is unsupported")
  check (["NORMAL", "MARKET"].contains (Value.get p.others "order_type").str)
    "Combo submissions support NORMAL and MARKET only"
  check (timesInForce.contains (Value.get p.others "time_in_force").str) "Combo submissions support DAY and GTC only"
  let legs ← buildComboLegs (Value.get p.others "combo_legs")
  let facts ← comboFacts (lookupOf w.instruments) w.valued "prepare combo" legs (Value.get p.others "price")
    (Value.get p.others "qty") (Value.get p.others "order_type")
  (w.assess "prepare combo" facts).lift
  contractView facts

/-- `request[name] if request[name] is not None else target[name]`. -/
def patched (p : Parameters) (target : Fields) (name : String) : Except Exc Value :=
  if (Value.get p.others name).isNull then Value.item target name else .ok (Value.get p.others name)

def optionalNumber (x : Option Decimal) : Value := x.elim .null (fun d => .number (.finite d))

/-- The request of a modification, as the order that results. -/
def effective (p : Parameters) (target : Fields) : Except Exc Parameters := do
  let code ← Value.item target "code"
  let side ← Value.item target "trd_side"
  let orderType ← Value.item target "order_type"
  let qty ← patched p target "qty"
  let price ← patched p target "price"
  let aux ← optionalFloat (Value.get target "aux_price")
  return { p with others := [("code", code), ("trd_side", side), ("order_type", orderType), ("qty", qty), ("price", price),
    ("aux_price", optionalNumber aux)] ++ p.others }

def exposes (method : String) (p : Parameters) : Bool :=
  method = "modify_order" ∧ RealBoundary.exposingOps.contains (p.modifyOrderOp.getD "")

/-- The review of what is to happen to an order that is there already. -/
def mutationReview (w : World) (method : String) (p : Parameters) : Except Exc (Option Contract) := do
  let target ← w.fetchOrder.lift
  if exposes method p then
    let facts ← singleFacts w "prepare modification" (← effective p target)
    return some (← contractView facts)
  else return none

/-- The contract that is to be reviewed, where the mutation has one. -/
def reviewedContract (w : World) (method : String) (p : Parameters) : Except Exc (Option Contract) :=
  if method = "place_order" then (singlePreview w p).map some
  else if method = "place_combo_order" then (comboReview w p).map some
  else mutationReview w method p

/-- The request that is stored: it names the account that was resolved for it. -/
def preparedParameters (w : World) (st : Store) (method : String) (p : Parameters) : Except Exc Parameters := do
  if !w.configured then .error (controlError "Durable trading controls are not configured")
  let request ← boundParameters method p
  validatePreparation w st method request
  let market ← preparationMarket method request
  let account ← resolveAccount w.policy w.accounts.lift w.grants request.trdEnv market request.accId true
  checkAccountAccess w.grants request.trdEnv (toString account) false
  return { request with accId := toString account }

/-- `_prepare_review`, before it is stored. -/
def review (w : World) (method : String) (p : Parameters) : Except Exc Review := do
  let contract ← reviewedContract w method p
  let evidence ← (w.observe contract).lift
  return ⟨contract, evidence⟩

def prepareRequest (w : World) (st : Store) (db : Database) (fault : Bool) (now : ℚ) (identifier : RequestId)
    (method : String) (p : Parameters) (ttlSeconds : ℤ) : Except Exc Prepared × Store × Database :=
  let prepared : Except Exc (Parameters × Review) := do
    let request ← preparedParameters w st method p
    return (request, ← review w method request)
  match prepared with
  | .error e => (.error e, st, db)
  | .ok (request, review) => prepare st db fault now identifier method request review ttlSeconds

end MoomooMcp.TradePreparation
