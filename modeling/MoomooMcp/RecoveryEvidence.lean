import MoomooMcp.Accounting
import MoomooMcp.OrderRules

namespace MoomooMcp

/-- `Decimal(text)`, which reads the digits of a text of any length as they are. -/
def Text.toDecimal (text : String) : Option Numeral :=
  let (negative, rest) := signed ((strip text.toList).filter (· ≠ '_'))
  let lower := rest.map Char.toLower
  let diagnostic := lower.reverse.dropWhile Char.isDigit
  if ["inf", "infinity"].contains (String.ofList lower) || ["nan", "snan"].contains (String.ofList diagnostic.reverse) then
    some .nonFinite
  else (unsignedNumeral rest).map
    (fun d => .finite { d with coefficient := if negative then -d.coefficient else d.coefficient })

namespace RecoveryEvidence

open Accounting (evidenceError checkAll refuseIf)

abbrev Fields := List (String × Value)

def number : Value → Except Exc Decimal
  | .null | .bool _ => .error (evidenceError "Missing or invalid numeric broker evidence")
  | .number (.finite d) =>
      if d.isInt ∧ 4300 < Decimal.digits d.coefficient.natAbs then
        .error (evidenceError "Exceeds the limit (4300 digits) for integer string conversion")
      else .ok d
  | .number .nonFinite => .error (evidenceError "Nonfinite broker evidence")
  | .text s =>
      match Text.toDecimal s with
      | some (.finite d) => .ok d
      | some .nonFinite => .error (evidenceError "Nonfinite broker evidence")
      | none => .error (evidenceError "Invalid numeric broker evidence")
  | .list _ | .object _ => .error (evidenceError "Invalid numeric broker evidence")

/-- A cell of a broker table, as equality of values sees it: a Boolean is a
number, and nothing that is missing, nested or not a number is a cell. -/
inductive Cell
  | number (q : ℚ)
  | text (s : String)
  deriving DecidableEq, Repr

def cell : Value → Option Cell
  | .bool b => some (.number (if b then 1 else 0))
  | .number (.finite d) => some (.number d.value)
  | .text s => some (.text s)
  | .null | .number .nonFinite | .list _ | .object _ => none

def asText : Value → Option String
  | .text s => some s
  | _ => none

/-- The text of a cell, where a check has shown that it is one. -/
def text (o : Fields) (name : String) : String := (asText (Value.get o name)).getD ""

/-- What recovery reads of a journal row. A tag or an identity that is not
recorded, or empty, is `none`. -/
structure Journaled where
  kind : Kind
  account : String
  orderTag : Option String
  brokerOrderId : Option String
  request : Fields
  mergedRequest : Option Fields

def Journaled.expected (row : Journaled) : Fields := row.mergedRequest.getD row.request

def orderId (o : Fields) : Except Exc String :=
  match Value.get o "order_id" with
  | .text s => .ok s
  | _ => .error (evidenceError "Missing broker order identity")

def observed (env : Environment) (account : String) (o : Fields) : Except Exc Unit := do
  let identity ← orderId o
  refuseIf (¬(Text.isDecimal identity ∧ identity.length ≤ 4300 ∧ 0 < Text.toNat identity)) "Missing broker order identity"
  refuseIf (asText ((o.lookup "trd_env").getD (.text env.text)) ≠ some env.text ∨
      ((o.lookup "acc_id").getD (.text account)).str ≠ account)
    "Broker query account/environment mismatch"

/-- The rows both order queries returned, once each of them is well formed. -/
def observations (env : Environment) (row : Journaled) (orders : List Fields) : Except Exc (List Fields) :=
  (checkAll (observed env row.account) orders).map (fun _ => orders)

def target (row : Journaled) : Except Exc (Option String) :=
  match row.kind with
  | .place | .placeCombo => .ok row.brokerOrderId
  | .modify | .cancel => (Value.item row.request "order_id").map (fun v => some v.str)

def correlates (row : Journaled) (target : Option String) (o : Fields) : Bool :=
  target.any (fun t => t ≠ "" ∧ asText (Value.get o "order_id") = some t) ||
    row.orderTag.any (fun tag => asText (Value.get o "remark") = some tag)

def matchingOrders (row : Journaled) (orders : List Fields) : Except Exc (List Fields) :=
  (target row).map (fun target => orders.filter (correlates row target))

def remarkAgrees (row : Journaled) (o : Fields) : Except Exc Unit :=
  match row.orderTag with
  | none => .ok ()
  | some tag =>
      let remark := Value.get o "remark"
      refuseIf (¬(remark.isNull = true ∨ asText remark = some "" ∨ asText remark = some tag) ∨
          (row.brokerOrderId = none ∧ asText remark ≠ some tag))
        "Broker remark disagrees with persisted tag"

def cellAgrees (name : String) (final o : Fields) : Except Exc Unit :=
  refuseIf (cell (Value.get final name) = none ∨ cell (Value.get o name) ≠ cell (Value.get final name))
    "Broker observations disagree or lack required fields"

def numberAgrees (name : String) (final o : Fields) : Except Exc Unit := do
  let left ← number (Value.get o name)
  let right ← number (Value.get final name)
  refuseIf (left.value ≠ right.value) "Broker observations disagree"

def numbersAgree (final o : Fields) : Except Exc Unit := do
  numberAgrees "qty" final o
  numberAgrees "price" final o
  numberAgrees "dealt_qty" final o
  numberAgrees "dealt_avg_price" final o

def sameOrder (orders : List Fields) : Except Exc Fields := do
  let identities ← orders.mapM orderId
  match orders with
  | [] => .error (evidenceError "Correlation identifies multiple broker orders")
  | final :: _ =>
      refuseIf (identities.dedup.length ≠ 1) "Correlation identifies multiple broker orders"
      .ok final

def recordedIdentity (row : Journaled) (final : Fields) : Except Exc Unit :=
  refuseIf (row.brokerOrderId ≠ none ∧ asText (Value.get final "order_id") ≠ row.brokerOrderId)
    "Tag disagrees with recorded broker identity"

/-- The numbers of a located order, and its status; no status that is not a text is a known one. -/
structure Fill where
  status : String
  qty : Decimal
  price : Decimal
  filled : Decimal
  average : Decimal

def fill (final : Fields) : Except Exc Fill := do
  let qty ← number (Value.get final "qty")
  let price ← number (Value.get final "price")
  let filled ← number (Value.get final "dealt_qty")
  let average ← number (Value.get final "dealt_avg_price")
  .ok ⟨text final "order_status", qty, price, filled, average⟩

def terminalBroker : List String := ["FILLED_ALL", "CANCELLED_ALL", "CANCELLED_PART", "FAILED", "DELETED", "REJECTED"]

def activeBroker : List String :=
  ["UNSUBMITTED", "WAITING_SUBMIT", "SUBMITTING", "SUBMIT_FAILED", "SUBMITTED", "FILLED_PART", "CANCELLING_PART",
    "CANCELLING_ALL", "DISABLED"]

/-- The digits that arithmetic keeps unless a precision is set. -/
def precision : ℕ := 28

def overflow : Exc := ⟨.other, "[<class 'decimal.Overflow'>]", false⟩

def plus (a b : Decimal) : Except Exc Decimal := (Decimal.add precision a b).elim (.error overflow) .ok

def minus (a b : Decimal) : Except Exc Decimal := plus a { b with coefficient := -b.coefficient }

/-- The quantity that can still execute. -/
def Fill.remaining (f : Fill) : Except Exc Decimal :=
  if f.status ∈ terminalBroker then .ok ⟨0, 0⟩ else minus f.qty f.filled

def addPositions (env : Environment) (account code : String) (total : Decimal) : List Value → Except Exc Decimal
  | [] => .ok total
  | .object p :: ps => do
      refuseIf (asText (Value.get p "code") ≠ some code) "Position query scope mismatch"
      refuseIf (asText ((p.lookup "trd_env").getD (.text env.text)) ≠ some env.text ∨
          ((p.lookup "acc_id").getD (.text account)).str ≠ account)
        "Position query account/environment mismatch"
      let qty ← number (Value.get p "qty")
      let total' ← plus total qty
      addPositions env account code total' ps
  | _ :: _ => .error (evidenceError "Position query scope mismatch")

abbrev PositionQuery := String → Except Exc Value

def position (env : Environment) (account : String) (query : PositionQuery) (code : String) : Except Exc Decimal := do
  match ← query code with
  | .list items => addPositions env account code ⟨0, 0⟩ items
  | _ => .error (evidenceError "Malformed position query")

def positions (env : Environment) (account : String) (query : PositionQuery) :
    List String → Except Exc (List (String × Decimal))
  | [] => .ok []
  | code :: codes => do
      let held ← position env account query code
      let rest ← positions env account query codes
      .ok ((code, held) :: rest)

/-- What accounting reports of a located order. A quantity is kept as the
decimal whose text, `Decimal.str`, the source stores. -/
structure Facts where
  code : Option String
  accId : String
  trdEnv : Environment
  brokerStatus : String
  filledQuantity : Decimal
  averageFillPrice : Decimal
  remainingExecutableQuantity : Decimal
  currentPositions : List (String × Decimal)
  mutationSuccessProven : Bool

structure Accounted where
  receipt : Fields
  facts : Facts
  resolution : ExecutionStore.Resolution

def placement (kind : Kind) : Bool := kind = .place ∨ kind = .placeCombo

def accounted (env : Environment) (row : Journaled) (final : Fields) (f : Fill) (code : Option String)
    (held : List (String × Decimal)) (resolution : ExecutionStore.Resolution) : Except Exc (Option Accounted) := do
  let remaining ← f.remaining
  .ok (some ⟨final, ⟨code, row.account, env, f.status, f.filled, f.average, remaining, held, placement row.kind⟩,
    resolution⟩)

namespace Paper

def agrees (row : Journaled) (final o : Fields) : Except Exc Unit := do
  remarkAgrees row o
  cellAgrees "order_status" final o
  cellAgrees "code" final o
  cellAgrees "trd_side" final o
  cellAgrees "order_type" final o
  numbersAgree final o

def inScope (final : Fields) (f : Fill) : Except Exc Unit := do
  refuseIf (f.status ∉ terminalBroker ++ activeBroker ∨ f.qty.value ≤ 0 ∨ f.qty.value.den ≠ 1 ∨ f.price.value ≤ 0 ∨
      f.filled.value < 0 ∨ f.qty.value < f.filled.value ∨ f.average.value < 0)
    "Invalid broker status or fill evidence"
  -- The text of no other value begins like this.
  refuseIf ((text final "code").toList.take 3 ≠ "US.".toList ∨
      ¬(asText (Value.get final "trd_side") = some "BUY" ∨ asText (Value.get final "trd_side") = some "SELL") ∨
      asText (Value.get final "order_type") ≠ some "NORMAL")
    "Broker target outside paper scope"

def disagreement : String := "Correlated placement disagrees with request"

def placementAgrees (row : Journaled) (final : Fields) (f : Fill) : Except Exc Unit := do
  let code ← Value.item row.request "code"
  refuseIf (cell (Value.get final "code") ≠ cell code) disagreement
  let side ← Value.item row.request "trd_side"
  refuseIf (cell (Value.get final "trd_side") ≠ cell side) disagreement
  let qty ← number (← Value.item row.expected "qty")
  refuseIf (f.qty.value ≠ qty.value) disagreement
  let price ← number (← Value.item row.expected "price")
  refuseIf (f.price.value ≠ price.value) disagreement

/-- Whether the target shows the quantity and price of the modification. -/
def asked (row : Journaled) (f : Fill) : Except Exc Bool := do
  let qty ← number (← Value.item row.expected "qty")
  if f.qty.value ≠ qty.value then .ok false
  else
    let price ← number (← Value.item row.expected "price")
    .ok (f.price.value = price.value)

def resolution (row : Journaled) (final : Fields) (f : Fill) : Except Exc (Option ExecutionStore.Resolution) :=
  if row.kind = .place then (placementAgrees row final f).map (fun _ => some .brokerConfirmed)
  else if f.status ∈ terminalBroker then .ok (some .terminalAccounted)
  else if row.kind = .modify then
    (asked row f).map (fun same => if same then some .currentStateAccounted else none)
  else .ok none

def report (row : Journaled) (final : Fields) (f : Fill) (query : PositionQuery) :
    Option ExecutionStore.Resolution → Except Exc (Option Accounted)
  | none => .ok none
  | some resolution => do
      let held ← position .simulate row.account query (text final "code")
      accounted .simulate row final f (some (text final "code")) [(text final "code", held)] resolution

/-- Once the rows agree with each other, the first of them is accounted for. -/
def conclude (row : Journaled) (final : Fields) (query : PositionQuery) : Except Exc (Option Accounted) := do
  recordedIdentity row final
  let f ← fill final
  inScope final f
  report row final f query (← resolution row final f)

def account (row : Journaled) (orders : List Fields) (query : PositionQuery) : Except Exc (Option Accounted) := do
  let final ← sameOrder orders
  checkAll (agrees row final) orders
  conclude row final query

end Paper

namespace Real

def combo (row : Journaled) : Bool := row.kind = .placeCombo

structure LegIdentity where
  code : String
  trdSide : String
  qtyRatio : ℤ
  positionId : Option ℤ
  deriving DecidableEq, Repr

def legError : Exc := evidenceError "Invalid REAL combo leg evidence"

def positionError : Exc := evidenceError "Invalid REAL combo position identity"

def positionIdentity : Value → Except Exc (Option ℤ)
  | .null => .ok none
  | .number (.finite d) => if d.isInt then .ok (some d.coefficient) else .error positionError
  | .text s =>
      let digits := String.ofList (Text.strip s.toList)
      if Text.isDecimal digits ∧ digits.length ≤ 4300 then .ok (some (Text.toNat digits)) else .error positionError
  | _ => .error positionError

def legIdentity : Value → Except Exc LegIdentity
  | .object leg => do
      let code := ((asText (Value.get leg "code")).map (fun s => String.ofList (Text.strip s.toList))).getD ""
      refuseIf (code = "") "Invalid REAL combo leg evidence"
      let ratio ← number (Value.get leg "qty_ratio")
      let side := ((asText (Value.get leg "trd_side")).map Text.normalize).getD ""
      refuseIf (¬(side = "BUY" ∨ side = "SELL") ∨ ratio.value ≤ 0 ∨ ratio.value.den ≠ 1) "Invalid REAL combo leg evidence"
      let position ← positionIdentity (Value.get leg "position_id")
      .ok ⟨code, side, ratio.value.num, position⟩
  | _ => .error legError

def legIdentities : Value → Except Exc (List LegIdentity)
  | .list (leg :: legs) => (leg :: legs).mapM legIdentity
  | _ => .error (evidenceError "Missing REAL combo leg evidence")

def comboLegs (o : Fields) : Value := (o.lookup "combo_legs").getD (Value.get o "combo_leg_list")

def legsAgree (final o : Fields) : Except Exc Unit := do
  let left ← legIdentities (comboLegs o)
  let right ← legIdentities (comboLegs final)
  refuseIf (left ≠ right) "Broker combo observations disagree"

def agrees (row : Journaled) (final o : Fields) : Except Exc Unit := do
  remarkAgrees row o
  cellAgrees "order_status" final o
  cellAgrees "order_type" final o
  if combo row then
    numbersAgree final o
    legsAgree final o
  else
    cellAgrees "code" final o
    cellAgrees "trd_side" final o
    numbersAgree final o

def inScope (row : Journaled) (final : Fields) (f : Fill) : Except Exc Unit := do
  refuseIf (f.status ∉ terminalBroker ++ activeBroker ∨ f.qty.value ≤ 0 ∨ f.filled.value < 0 ∨
      f.qty.value < f.filled.value ∨ (combo row = false ∧ f.average.value < 0))
    "Invalid broker status or fill evidence"
  refuseIf (combo row = false ∧ (text final "code" = "" ∨ text final "trd_side" = ""))
    "Missing REAL instrument/side evidence"

def disagreement : String := "Correlated placement disagrees with request"

/-- Whether a row shows a field as it was asked for. -/
def shows (name : String) (numeric : Bool) (value : Value) (o : Fields) : Except Exc Unit := do
  refuseIf ((Value.get o name).isNull = true) ("Missing broker " ++ name ++ " evidence")
  if numeric then
    let left ← number (Value.get o name)
    let right ← number value
    refuseIf (left.value ≠ right.value) ("Broker " ++ name ++ " disagrees with request")
  else
    refuseIf (cell (Value.get o name) = none ∨ cell (Value.get o name) ≠ cell value)
      ("Broker " ++ name ++ " disagrees with request")

/-- The fields that a placement may leave out, each with whether it is a number. -/
def optionalFields : List (String × Bool) :=
  [("time_in_force", false), ("session", false), ("aux_price", true), ("trail_type", false), ("trail_value", true),
    ("trail_spread", true)]

/-- Every correlated row shows the field, where it was asked for. -/
def evidenced (row : Journaled) (orders : List Fields) (field : String × Bool) : Except Exc Unit :=
  if (Value.get row.expected field.1).isNull then .ok ()
  else checkAll (shows field.1 field.2 (Value.get row.expected field.1)) orders

def placementAgrees (row : Journaled) (final : Fields) (f : Fill) (orders : List Fields) : Except Exc Unit := do
  let qty ← number (← Value.item row.expected "qty")
  refuseIf (f.qty.value ≠ qty.value) disagreement
  let price ← number (← Value.item row.expected "price")
  refuseIf (f.price.value ≠ price.value) disagreement
  let type ← Value.item row.expected "order_type"
  refuseIf (cell (Value.get final "order_type") ≠ cell type) disagreement
  if combo row then
    let left ← legIdentities (comboLegs final)
    let right ← legIdentities (← Value.item row.expected "combo_legs")
    refuseIf (left ≠ right) "Correlated combo legs disagree with request"
  else
    let code ← Value.item row.request "code"
    refuseIf (cell (Value.get final "code") ≠ cell code) disagreement
    let side ← Value.item row.request "trd_side"
    refuseIf (cell (Value.get final "trd_side") ≠ cell side) disagreement
  checkAll (evidenced row orders) optionalFields

/-- Whether the target shows whichever of quantity and price was asked for. -/
def sameTerms (row : Journaled) (final : Fields) : List String → Except Exc Bool
  | [] => .ok true
  | name :: names =>
      if (Value.get row.expected name).isNull then sameTerms row final names
      else do
        let left ← number (Value.get row.expected name)
        let right ← number (Value.get final name)
        if left.value ≠ right.value then .ok false else sameTerms row final names

/-- The operation a mutation was asked for, a cancellation where none is named. -/
def mutation (row : Journaled) : String :=
  Text.normalize ((row.request.lookup "modify_order_op").getD (.text "CANCEL")).str

/-- Whether a live target is in the state the modification asked for. -/
def asked (row : Journaled) (final : Fields) (f : Fill) : Except Exc Bool :=
  if row.kind = .cancel then .ok false
  else if mutation row = "DISABLE" then .ok (f.status = "DISABLED")
  else if mutation row = "NORMAL" ∨ mutation row = "ENABLE" then
    if mutation row = "ENABLE" ∧ f.status = "DISABLED" then .ok false else sameTerms row final ["qty", "price"]
  else .ok false

def resolution (row : Journaled) (final : Fields) (f : Fill) (orders : List Fields) :
    Except Exc (Option ExecutionStore.Resolution) :=
  if placement row.kind then (placementAgrees row final f orders).map (fun _ => some .brokerConfirmed)
  else if f.status ∈ terminalBroker then .ok (some .terminalAccounted)
  else (asked row final f).map (fun same => if same then some .currentStateAccounted else none)

def codes (row : Journaled) (final : Fields) : Except Exc (List String) :=
  if combo row then do
    let legs ← legIdentities (← Value.item row.expected "combo_legs")
    return (legs.map LegIdentity.code).eraseDups
  else .ok [text final "code"]

def report (row : Journaled) (final : Fields) (f : Fill) (query : PositionQuery) :
    Option ExecutionStore.Resolution → Except Exc (Option Accounted)
  | none => .ok none
  | some resolution => do
      let held ← positions .real row.account query (← codes row final)
      accounted .real row final f (if combo row then none else some (text final "code")) held resolution

/-- Once the rows agree with each other, the first of them is accounted for. -/
def conclude (row : Journaled) (final : Fields) (orders : List Fields) (query : PositionQuery) :
    Except Exc (Option Accounted) := do
  recordedIdentity row final
  let f ← fill final
  inScope row final f
  report row final f query (← resolution row final f orders)

def account (row : Journaled) (orders : List Fields) (query : PositionQuery) : Except Exc (Option Accounted) := do
  let final ← sameOrder orders
  checkAll (agrees row final) orders
  conclude row final orders query

end Real

def account (env : Environment) : Journaled → List Fields → PositionQuery → Except Exc (Option Accounted) :=
  match env with
  | .simulate => Paper.account
  | .real => Real.account

/-- The outcome that a check records of correlated rows. -/
def recorded : Except Exc (Option Accounted) → ExecutionStore.CheckOutcome
  | .error _ => .error
  | .ok none => .targetPending
  | .ok (some _) => .found

end RecoveryEvidence

end MoomooMcp
