import MoomooMcp.OrderRules
import MoomooMcp.TradingControls

namespace MoomooMcp.OrderContract

open Intent OrderRules TradingControls

/-- One leg of an order: how much of it there is, and what it is. -/
structure LegFacts where
  instrument : InstrumentFacts
  qtyRatio : ℕ := 1

/-- An order reduced to the facts the limit assessment needs. -/
structure OrderFacts where
  orderType : String
  trdSide : String
  qty : Option ℕ
  legs : List LegFacts
  price : Option Numeral := none
  auxPrice : Option Decimal := none
  isCombo : Bool := false

def LegFacts.view (leg : LegFacts) : ContractLeg :=
  ⟨leg.instrument.code, toString leg.qtyRatio, leg.instrument.monetaryMultiplier.map rendered⟩

def numberText : Numeral → Except Exc String
  | .finite d => .ok (rendered d)
  | .nonFinite => .error (valueError "Prepared request numbers must be finite")

/-- The order being reviewed, separate from changing market quotes. -/
def contractView (facts : OrderFacts) : Except Exc Contract := do
  let price ← facts.price.mapM numberText
  return ⟨facts.orderType, facts.trdSide, facts.qty.elim "null" toString, price, facts.auxPrice.map rendered,
    facts.isCombo, facts.legs.map LegFacts.view⟩

/-- Look up the classification, rules and valuation facts an order needs. -/
abbrev InstrumentLookup := Option (List String → Except Exc (List InstrumentFacts))

def instrumentFacts (lookup : InstrumentLookup) (operation : String) (codes : List String) :
    Except Exc (List InstrumentFacts) :=
  match lookup with
  | none => .error (valueError (operation ++ " cannot verify its instrument rules or valuation: this service has no " ++
      "instrument lookup wired, so the instrument's price and classification are unavailable."))
  | some find => find codes

def decimalOf : Value → Option Decimal
  | .number (.finite d) => some d
  | _ => none

/-- `float(price) if price is not None else None`. -/
def floatOrNone (price : Value) : Except Exc (Option Numeral) :=
  if price.isNull then .ok none else (toFloat price).map some

/-- Build the assessment input for a single-leg order. -/
def singleLegFacts (lookup : InstrumentLookup) (operation : String)
    (code orderType trdSide qty price auxPrice : Value) (session : String) : Except Exc OrderFacts := do
  let facts ← instrumentFacts lookup operation [code.str]
  match facts, code with
  | [instrument], .text name => do
      check (instrument.code = name) (operation ++ ": exact instrument classification is unavailable")
      validateInstrumentOrder operation instrument qty orderType price auxPrice
      validateOrderSession instrument orderType session
      let n ← wholeQuantity operation qty
      let number ← floatOrNone price
      return ⟨orderType.str, trdSide.str, some n, [⟨instrument, 1⟩], number, decimalOf auxPrice, false⟩
  | _, _ => .error (valueError (operation ++ ": exact instrument classification is unavailable"))

/-- The market prefix of a security code. -/
def getMarketFromCode (code : String) : Option String :=
  if code.toList.contains '.' then some (String.ofList ((code.toList.takeWhile (· ≠ '.')).map Char.toUpper)) else none

structure ComboLeg where
  code : String
  trdSide : String
  qtyRatio : ℕ
  positionId : Option ℤ

/-- `value or ""`, as a text without the blanks around it. -/
def cleaned : Value → String
  | .null | .bool false | .list [] | .object [] => ""
  | .number (.finite d) => if d.coefficient = 0 then "" else d.text
  | v => String.ofList (Text.strip v.str.toList)

def legError (index : ℕ) (message : String) : Exc := valueError ("Leg " ++ toString index ++ message)

def positionIdOf (index : ℕ) : Value → Except Exc (Option ℤ)
  | .null => .ok none
  | .bool _ => .error (legError index " has a boolean 'position_id'")
  | .number (.finite d) =>
      if d.isInt then .ok (some d.coefficient)
      else .error (legError index (" has a non-integer 'position_id': " ++ d.text))
  | .text s =>
      let text := String.ofList (Text.strip s.toList)
      -- A longer text is one that `int` refuses.
      if Text.isDecimal text ∧ text.length ≤ 4300 then .ok (some (Text.toNat text))
      else .error (legError index (" has a non-integer 'position_id': '" ++ s ++ "'"))
  | v => .error (legError index (" has a non-integer 'position_id': " ++ v.str))

def qtyRatioOf (index : ℕ) (fields : List (String × Value)) : Except Exc ℕ :=
  match fields.lookup "qty_ratio" with
  | none => .error (legError index " is missing 'qty_ratio'.")
  | some (.number (.finite d)) =>
      if !d.isInt then .error (legError index (" has a non-integer 'qty_ratio': " ++ d.text))
      else if d.coefficient ≤ 0 then
        .error (legError index (" has a 'qty_ratio' of " ++ d.text ++ "; it must be a positive integer."))
      else .ok d.coefficient.toNat
  | some v => .error (legError index (" has a non-integer 'qty_ratio': " ++ v.str))

def buildLeg (index : ℕ) : Value → Except Exc ComboLeg
  | .object fields => do
      let code := cleaned (Value.get fields "code")
      check (code ≠ "") ("Leg " ++ toString index ++ " is missing a non-empty 'code'.")
      let side := (cleaned (Value.get fields "trd_side")).map Char.toUpper
      check (side = "BUY" ∨ side = "SELL") ("Invalid trd_side '" ++ (Value.get fields "trd_side").str ++ "' on leg " ++
        toString index ++ ". Valid options: ['BUY', 'SELL']")
      let ratio ← qtyRatioOf index fields
      let position ← positionIdOf index (Value.get fields "position_id")
      return ⟨code, side, ratio, position⟩
  | v => .error ⟨.other, "'" ++ v.typeName ++ "' object has no attribute 'get'", false⟩

def buildLegs (index : ℕ) : List Value → Except Exc (List ComboLeg)
  | [] => .ok []
  | v :: vs => do return (← buildLeg index v) :: (← buildLegs (index + 1) vs)

/-- Validate leg dictionaries and convert them to the legs of the broker. -/
def buildComboLegs : Value → Except Exc (List ComboLeg)
  | .list vs => do
      check (2 ≤ vs.length) "A combo order requires at least two legs. Use place_order for single-leg orders."
      let legs ← buildLegs 0 vs
      check (((legs.filterMap (fun leg => getMarketFromCode leg.code)).filter (fun m => !m.isEmpty)).dedup.length ≤ 1)
        "All combo legs must belong to the same market"
      return legs
  | v => .error ⟨.type, "object of type '" ++ v.typeName ++ "' is not a list of legs", false⟩

def legsMarket (legs : List ComboLeg) : Option String := legs.head?.bind (fun leg => getMarketFromCode leg.code)

/-- The facts of the legs, in their order. Two facts of one code leave the later one. -/
def legFacts (operation : String) (facts : List InstrumentFacts) : List ComboLeg → Except Exc (List LegFacts)
  | [] => .ok []
  | leg :: legs =>
      match facts.reverse.find? (fun i => i.code = leg.code) with
      | none => .error (valueError (operation ++ ": no instrument facts for leg " ++ leg.code ++ "."))
      | some instrument => do return ⟨instrument, leg.qtyRatio⟩ :: (← legFacts operation facts legs)

def numeralOf : Value → Option Numeral
  | .number n => some n
  | _ => none

def quantityOf : Value → Option ℕ
  | .number (.finite d) => some d.coefficient.toNat
  | _ => none

/-- Build the assessment input for a combo package. `valued` says whether a cap
makes the facts of the instruments necessary. -/
def comboFacts (lookup : InstrumentLookup) (valued : Bool) (operation : String) (legs : List ComboLeg)
    (price qty orderType : Value) : Except Exc OrderFacts := do
  let facts ←
    if valued then do
      legFacts operation (← instrumentFacts lookup operation (legs.map (·.code))) legs
    else .ok (legs.map (fun leg => ⟨{ code := leg.code }, leg.qtyRatio⟩))
  return ⟨orderType.str, "", quantityOf qty, facts, numeralOf price, none, true⟩

end MoomooMcp.OrderContract
