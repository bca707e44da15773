import MoomooMcp.Accounts
import MoomooMcp.OrderContract

namespace MoomooMcp.PaperRequests

open Intent OrderRules

abbrev Fields := List (String × Value)

/-- The bound arguments of a mutation that its own checks read. -/
structure Arguments where
  method : String
  parameters : Parameters

def placeFields : List String :=
  ["code", "price", "qty", "trd_side", "order_type", "time_in_force", "adjust_limit", "aux_price", "trail_type",
    "trail_value", "trail_spread", "remark"]

/-- The named values, in this order. -/
def select (fields : Fields) : List String → Except Exc Fields
  | [] => .ok []
  | name :: names => do
      let v ← Value.item fields name
      return (name, v) :: (← select fields names)

def given (fields : Fields) (name : String) : Fields :=
  if (Value.get fields name).isNull then [] else [(name, Value.get fields name)]

/-- Whether a number is not zero, of whatever type. -/
def nonZero : Value → Bool
  | .number (.finite d) => d.coefficient ≠ 0
  | .bool b => b
  | _ => true

/-- `_paper_parameters`: the request the paper executor is given, as admission reads it. -/
def paperParameters (method : String) (p : Parameters) : Except Exc (Kind × Fields) := do
  if method = "place_order" then
    let _ ← normalizeOrderSession (p.session.getD "N/A") "SIMULATE"
    return (.place, ← select p.others placeFields)
  else
    let operation := p.modifyOrderOp.getD "CANCEL"
    check (operation = "NORMAL" ∨ operation = "CANCEL") "Paper execution supports modifications and cancellations only"
    let orderId ← Value.item p.others "order_id"
    if operation = "NORMAL" then
      let adjustLimit ← Value.item p.others "adjust_limit"
      return (.modify, [("order_id", orderId), ("adjust_limit", adjustLimit)] ++ given p.others "qty" ++
        given p.others "price")
    else
      check (method ≠ "modify_order" ∨ ((Value.get p.others "qty").isNull = true ∧
          (Value.get p.others "price").isNull = true ∧ nonZero (Value.get p.others "adjust_limit") = false))
        "Paper cancellation does not accept a price or quantity patch"
      return (.cancel, [("order_id", orderId)])

def whole : Value → Except Exc Unit
  | .number (.finite d) =>
      check (d.isInt && decide (0 < d.coefficient)) "Paper execution supports positive whole-share quantities only"
  | _ => .error (valueError "Paper execution supports positive whole-share quantities only")

/-- `params.get("adjust_limit", 0)`. -/
def adjustLimit (fields : Fields) : Value := (fields.lookup "adjust_limit").getD (.number (.finite ⟨0, 0⟩))

def placeSchema (fields : Fields) : Except Exc Unit := do
  check ((Value.get fields "order_type").str = "NORMAL" ∧ (Value.get fields "time_in_force").str = "DAY")
    "Version 1 paper execution supports NORMAL limit DAY orders only"
  check ("US.".toList.isPrefixOf (Value.get fields "code").str.toList &&
      ["BUY", "SELL"].contains (Value.get fields "trd_side").str)
    "Version 1 paper execution supports US stocks/ETFs and BUY/SELL only"
  check (!nonZero (adjustLimit fields) &&
      ["aux_price", "trail_type", "trail_value", "trail_spread"].all (fun name => (Value.get fields name).isNull))
    "Price adjustment and trigger/trailing parameters are outside paper scope"

/-- A text of decimal digits that denotes a positive number. -/
def positiveOrderId : Value → Bool
  | .text s => Text.isDecimal s && decide (s.length ≤ 4300) && decide (0 < Text.toNat s)
  | _ => false

def has (fields : Fields) (name : String) : Bool := (fields.lookup name).isSome

def targetSchema (kind : Kind) (fields : Fields) : Except Exc Unit := do
  check (positiveOrderId (Value.get fields "order_id")) "Paper mutation must name one positive decimal order ID"
  check (kind ≠ .modify ∨ ((has fields "qty" = true ∨ has fields "price" = true) ∧
      nonZero (adjustLimit fields) = false))
    "Paper modifications support only price and total quantity"

/-- `_schema`: what the paper executor accepts. -/
def schema (kind : Kind) (fields : Fields) : Except Exc Unit := do
  if has fields "price" then
    let _ ← decimalPrice (Value.get fields "price")
  if has fields "qty" then whole (Value.get fields "qty")
  if kind = .place then placeSchema fields else targetSchema kind fields

/-- The paper branch of `place_order`. -/
def placeOrder (p : Parameters) : Except Exc (Kind × Fields) := do
  let _ ← normalizeOrderSession (p.session.getD "N/A") p.trdEnv
  return (.place, placeFields.map (fun name => (name, Value.get p.others name)))

/-- The paper branch of `modify_order`. -/
def modifyOrder (policy : Accounts.AccountPolicy) (p : Parameters) : Except Exc (Kind × Fields) := do
  policy.checkWrite "modify_order" "SIMULATE"
  let op := p.modifyOrderOp.getD ""
  check (op = "NORMAL" ∨ op = "CANCEL")
    "Paper execution supports price/quantity modifications and individual cancellations only"
  check (op ≠ "CANCEL" ∨ ((Value.get p.others "qty").isNull = true ∧ (Value.get p.others "price").isNull = true ∧
      nonZero (Value.get p.others "adjust_limit") = false))
    "Paper cancellation does not accept a price or quantity patch"
  if op = "CANCEL" then return (.cancel, [("order_id", Value.get p.others "order_id")])
  else
    return (.modify, [("order_id", Value.get p.others "order_id"), ("adjust_limit", Value.get p.others "adjust_limit")] ++
      given p.others "qty" ++ given p.others "price")

/-- The paper branch of `cancel_order`. -/
def cancelOrder (p : Parameters) : Kind × Fields := (.cancel, [("order_id", Value.get p.others "order_id")])

/-- The paper branch of `place_combo_order`. -/
def placeComboOrder (policy : Accounts.AccountPolicy) (p : Parameters) : Except Exc (Kind × Fields) := do
  policy.checkWrite "place_combo_order" p.trdEnv
  .error (valueError "Combo orders are outside version 1 paper execution scope")

/-- What the trade service hands to the paper executor. -/
def paperRequest (policy : Accounts.AccountPolicy) (method : String) (p : Parameters) : Except Exc (Kind × Fields) :=
  if method = "place_order" then placeOrder p
  else if method = "modify_order" then modifyOrder policy p
  else if method = "cancel_order" then .ok (cancelOrder p)
  else placeComboOrder policy p

end MoomooMcp.PaperRequests
