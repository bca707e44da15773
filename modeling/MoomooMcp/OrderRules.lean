import MoomooMcp.Numbers

namespace MoomooMcp

namespace Value

/-- `str(value)`. The text of a container is one that no check accepts. -/
def str : Value → String
  | .null => "None"
  | .bool b => if b then "True" else "False"
  | .number (.finite d) => d.text
  | .number .nonFinite => "nan"
  | .text s => s
  | .list _ => "[...]"
  | .object _ => "(...)"

def typeName : Value → String
  | .null => "NoneType"
  | .bool _ => "bool"
  | .number (.finite d) => if d.isInt then "int" else "float"
  | .number .nonFinite => "float"
  | .text _ => "str"
  | .list _ => "list"
  | .object _ => "dict"

def isNull : Value → Bool
  | .null => true
  | _ => false

/-- `value if value is not None else other`. -/
def orElse (v other : Value) : Value := if v.isNull then other else v

/-- `fields.get(key)`. -/
def get (fields : List (String × Value)) (key : String) : Value := (fields.lookup key).getD .null

/-- `fields[key]`. -/
def item (fields : List (String × Value)) (key : String) : Except Exc Value :=
  match fields.lookup key with
  | some v => .ok v
  | none => .error ⟨.other, "'" ++ key ++ "'", false⟩

theorem item_ok {fields : List (String × Value)} {key : String} {v : Value} :
    item fields key = .ok v ↔ fields.lookup key = some v := by
  unfold item
  cases fields.lookup key with
  | none => simp
  | some w => simp

theorem get_of_lookup {fields : List (String × Value)} {key : String} {v : Value} (h : fields.lookup key = some v) :
    get fields key = v := by
  rw [get, h, Option.getD_some]

end Value

namespace OrderRules

open Intent

def check (ok : Bool) (message : String) : Except Exc Unit := if ok then .ok () else .error (valueError message)

theorem check_ok {ok : Bool} {message : String} : check ok message = .ok () ↔ ok = true := by
  cases ok with
  | true => exact iff_of_true rfl rfl
  | false => exact iff_of_false nofun nofun

theorem check_bind_ok {α : Type} {ok : Bool} {message : String} {rest : Unit → Except Exc α} {r : α} :
    (check ok message >>= rest) = .ok r ↔ ok = true ∧ rest () = .ok r := by
  cases ok with
  | true => exact ⟨fun h => ⟨rfl, h⟩, fun h => h.2⟩
  | false => exact iff_of_false nofun (fun h => nomatch h.1)

def fixedLimitTypes : List String :=
  ["NORMAL", "ABSOLUTE_LIMIT", "SPECIAL_LIMIT", "SPECIAL_LIMIT_ALL", "AUCTION_LIMIT", "STOP_LIMIT",
    "LIMIT_IF_TOUCHED"]

def noFixedLimitTypes : List String :=
  ["MARKET", "AUCTION", "STOP", "MARKET_IF_TOUCHED", "TRAILING_STOP", "TRAILING_STOP_LIMIT"]

def stopOrderTypes : List String := ["STOP", "STOP_LIMIT", "MARKET_IF_TOUCHED", "LIMIT_IF_TOUCHED"]

def trailingOrderTypes : List String := ["TRAILING_STOP", "TRAILING_STOP_LIMIT"]

/-- An integer that has no float. -/
def tooLarge : Value → Bool
  | .number (.finite d) => d.isInt && decide (d.toFloat = .nonFinite)
  | _ => false

/-- The conversion of such an integer, which is an arithmetic error and not one of values. -/
def overflowError : Exc := ⟨.other, "int too large to convert to float", false⟩

/-- A number that is finite as a float and not negative, where a value is given. -/
def finiteNonNegative (operation field : String) : Value → Except Exc Unit
  | .null => .ok ()
  | .number (.finite d) => do
      if tooLarge (.number (.finite d)) then .error overflowError
      check (d.toFloat ≠ .nonFinite) (operation ++ ": " ++ field ++ " must be a finite number, got " ++ d.text ++ ".")
      check (0 ≤ d.value) (operation ++ ": " ++ field ++ " must not be negative, got " ++ d.text ++ ".")
  | .number .nonFinite => .error (valueError (operation ++ ": " ++ field ++ " must be a finite number, got nan."))
  | v => .error (valueError (operation ++ ": " ++ field ++ " must be a number, got " ++ v.typeName ++ "."))

def positiveInteger (operation : String) : Value → Except Exc Unit
  | .null => .ok ()
  | .number (.finite d) => do
      check d.isInt (operation ++ ": qty must be a positive integer, got float.")
      check (0 < d.value) (operation ++ ": qty must be greater than 0, got " ++ d.text ++ ".")
  | v => .error (valueError (operation ++ ": qty must be a positive integer, got " ++ v.typeName ++ "."))

/-- A net package price, of either sign. -/
def finitePackagePrice (operation : String) : Value → Except Exc Unit
  | .null => .ok ()
  | .number (.finite d) => do
      if tooLarge (.number (.finite d)) then .error overflowError
      check (d.toFloat ≠ .nonFinite) (operation ++ ": price must be a finite number, got " ++ d.text ++ ".")
  | .number .nonFinite => .error (valueError (operation ++ ": price must be a finite number, got nan."))
  | v => .error (valueError (operation ++ ": price must be a number, got " ++ v.typeName ++ "."))

def finiteFields (operation : String) : List (String × Value) → Except Exc Unit
  | [] => .ok ()
  | (field, v) :: fields => do
      finiteNonNegative operation field v
      finiteFields operation fields

/-- The numeric values of an order, those that are not given being null. -/
structure OrderValues where
  orderType : Value
  qty : Value := .null
  price : Value := .null
  auxPrice : Value := .null
  trailValue : Value := .null
  trailSpread : Value := .null
  comboPrice : Value := .null

def OrderValues.fields (o : OrderValues) : List (String × Value) :=
  [("price", o.price), ("aux_price", o.auxPrice), ("trail_value", o.trailValue), ("trail_spread", o.trailSpread)]

def requestedType (orderType : Value) : String := Text.normalize orderType.str

/-- Check an order's numeric values before anything reaches the gateway. -/
def validateOrderValues (operation : String) (o : OrderValues) : Except Exc Unit := do
  positiveInteger operation o.qty
  finiteFields operation o.fields
  finitePackagePrice operation o.comboPrice
  match o.price with
  | .number (.finite d) =>
      check (requestedType o.orderType ∉ fixedLimitTypes ∨ 0 < d.value) (operation ++ ": " ++
        requestedType o.orderType ++ " is a limit order type and needs a price greater than 0, got " ++ d.text ++ ".")
  | _ => .ok ()

/-- Require the fields the gateway demands for this order type. -/
def validateRequiredOrderFields (operation : String) (orderType auxPrice trailType trailValue : Value) :
    Except Exc Unit := do
  check (requestedType orderType ∉ stopOrderTypes ∨ auxPrice.isNull = false)
    (operation ++ ": aux_price is required for stop/if-touched order types")
  check (requestedType orderType ∉ trailingOrderTypes ∨ trailType.isNull = false ∧ trailValue.isNull = false)
    (operation ++ ": trail_type and trail_value are required for trailing stop order types")

/-- The fields of a single-leg order that both boundaries check. -/
structure SingleOrder where
  orderType : Value
  qty : Value
  price : Value
  auxPrice : Value
  trailType : Value
  trailValue : Value
  trailSpread : Value

def SingleOrder.values (o : SingleOrder) : OrderValues :=
  { orderType := o.orderType, qty := o.qty, price := o.price, auxPrice := o.auxPrice, trailValue := o.trailValue
    trailSpread := o.trailSpread }

def validateSingleOrderRequest (operation : String) (o : SingleOrder) : Except Exc Unit := do
  validateOrderValues operation o.values
  validateRequiredOrderFields operation o.orderType o.auxPrice o.trailType o.trailValue

/-- A number as a finite decimal, however it is written. -/
def number (operation field : String) : Value → Except Exc Decimal
  | .number (.finite d) => .ok d
  | .text s =>
      match Text.toNumeral s with
      | some (.finite d) => .ok d
      | _ => .error (valueError (operation ++ ": " ++ field ++ " must be a finite number"))
  | _ => .error (valueError (operation ++ ": " ++ field ++ " must be a finite number"))

/-- Accept whole-valued floats without truncating fractional quantities. -/
def wholeQuantity (operation : String) : Value → Except Exc ℕ
  | .text _ => .error (valueError (operation ++ ": qty must be a positive whole number"))
  | v => do
      let d ← number operation "qty" v
      check (0 < d.value ∧ d.value.den = 1) (operation ++ ": qty must be a positive whole number")
      return d.value.num.toNat

/-- What is known of an instrument. Every number is positive and finite, or not known. -/
structure InstrumentFacts where
  code : String
  classification : Option String := none
  monetaryMultiplier : Option Decimal := none
  contractSize : Option Decimal := none
  lastPrice : Option Decimal := none
  bidPrice : Option Decimal := none
  askPrice : Option Decimal := none
  currency : Option String := none
  lotSize : Option Decimal := none
  deriving DecidableEq

def equityClassifications : List String := ["STOCK", "ETF"]

def orderClassifications : List String := ["STOCK", "ETF", "DRVT"]

def InstrumentFacts.equity (i : InstrumentFacts) : Bool := i.classification.any (· ∈ equityClassifications)

/-- The decimal places a price may have and its tick, where a rule is established. -/
structure Grid where
  places : Option ℕ
  tick : Option String

/-- Describe exactly which representation and tick facts are established. -/
def instrumentRuleSummary (instrument : InstrumentFacts) (price : Value) : Except Exc Grid := do
  check (instrument.classification.any (· ∈ orderClassifications))
    (instrument.code ++ ": instrument classification cannot be verified as a supported stock, ETF or option")
  let prefixed := instrument.code.toList.takeWhile (· ≠ '.')
  check (instrument.code.toList.drop (prefixed.length + 1) ≠ [])
    ("'" ++ instrument.code ++ "': a market-prefixed code is required")
  let market := String.ofList (prefixed.map Char.toUpper)
  if market = "US" ∧ instrument.equity = true then
    if price.isNull then return ⟨none, none⟩
    else
      let d ← number "instrument rules" "price" price
      return if d.value < 1 then ⟨some 4, some "0.0001"⟩ else ⟨some 2, some "0.01"⟩
  else if market = "US" then return ⟨some 2, none⟩
  else if market ∈ ["SH", "SZ"] ∧ instrument.equity = true then return ⟨some 2, some "0.01"⟩
  else return ⟨some 3, none⟩

def Grid.description (g : Grid) : String :=
  match g.tick with
  | some tick => "a multiple of the documented " ++ tick ++ " price tick"
  | none => "representable with at most " ++ toString (g.places.getD 0) ++ " decimal places"

/-- Whether digits after the last place of a grid are not zero. Where more digits
are discarded than there are, that is all of them. -/
def offGrid (d : Decimal) (places : ℕ) : Bool :=
  let discarded := (-places - d.exponent).toNat
  decide (0 < discarded) && (d.digitChars.drop (d.digitChars.length - discarded)).any (· ≠ '0')

def onGrid (operation field : String) (instrument : InstrumentFacts) (requestedType : String) (v : Value) :
    Except Exc Unit :=
  if v.isNull then .ok ()
  else do
    let d ← number operation field v
    check (0 ≤ d.value) (operation ++ ": " ++ field ++ " must not be negative")
    if d.value = 0 then
      check (field ≠ "price" ∨ requestedType ∉ fixedLimitTypes)
        (operation ++ ": limit price must be greater than zero")
    else
      let grid ← instrumentRuleSummary instrument (.number (.finite d))
      check (!grid.places.any (offGrid d)) (operation ++ ": " ++ field ++ " must be " ++ grid.description)

/-- Refuse off-grid or over-precision prices without silently rounding them. -/
def validateInstrumentOrder (operation : String) (instrument : InstrumentFacts) (qty orderType price auxPrice : Value) :
    Except Exc Unit := do
  check (requestedType orderType ∈ fixedLimitTypes ++ noFixedLimitTypes)
    (operation ++ ": '" ++ orderType.str ++ "' is not a documented submission order type")
  let _ ← wholeQuantity operation qty
  let _ ← instrumentRuleSummary instrument price
  onGrid operation "price" instrument (requestedType orderType) price
  onGrid operation "aux_price" instrument (requestedType orderType) auxPrice

/-- Apply a conservative explicit-session scope without broadening defaults. -/
def validateOrderSession (instrument : InstrumentFacts) (orderType : Value) (session : String) : Except Exc Unit := do
  let selected ← normalizeOrderSession session "REAL"
  if selected = "N/A" then .ok ()
  else
    check ("US.".toList.isPrefixOf instrument.code.toList && instrument.equity)
      "Explicit sessions apply only to verified US stocks and ETFs"
    check (selected = "RTH" ∨ requestedType orderType = "NORMAL")
      "ETH, OVERNIGHT and ALL sessions support NORMAL limit orders only"

/-- Accept bounded plain decimal text, never a number coerced to text. -/
def decimalPrice : Value → Except Exc Decimal
  | .text s =>
      if s.length < 1 ∨ 64 < s.length then .error (valueError "paper price must be a positive decimal string")
      else
        match Text.plainDecimal s.toList with
        | none => .error (valueError "paper price must be a positive decimal string")
        | some d => if d.value ≤ 0 then .error (valueError "paper price must be positive") else .ok d
  | _ => .error (valueError "paper price must be a positive decimal string")

/-- `float(value)`. -/
def toFloat : Value → Except Exc Numeral
  | .number (.finite d) => if tooLarge (.number (.finite d)) then .error overflowError else .ok d.toFloat
  | .number .nonFinite => .ok .nonFinite
  | .bool b => .ok (Decimal.toFloat ⟨if b then 1 else 0, 0⟩)
  | .text s =>
      match Text.toNumeral s with
      | some (.finite d) => .ok d.toFloat
      | some .nonFinite => .ok .nonFinite
      | none => .error (valueError ("could not convert string to float: '" ++ s ++ "'"))
  | v => .error ⟨.type, "float() argument must be a string or a real number, not '" ++ v.typeName ++ "'", false⟩

/-- A broker field as a float, or none where it is not a usable number. Only the
text that denotes no number is caught. -/
def optionalFloat : Value → Except Exc (Option Decimal)
  | .number (.finite d) => do
      match ← toFloat (.number (.finite d)) with
      | .finite x => return some x
      | .nonFinite => return none
  | .text s =>
      match Text.toNumeral s with
      | some (.finite d) =>
          match d.toFloat with
          | .finite x => .ok (some x)
          | .nonFinite => .ok none
      | _ => .ok none
  | _ => .ok none

theorem decimalPrice_plain {s : String} {d : Decimal} (h : decimalPrice (.text s) = .ok d) :
    Text.plainDecimal s.toList = some d := by
  dsimp only [decimalPrice] at h
  split at h
  · cases h
  · split at h
    · cases h
    · next hd =>
        split at h
        · cases h
        · cases h; exact hd

/-- A plain decimal price is the same float, read from its text or from its decimal. -/
theorem toFloat_decimalPrice {v : Value} {d : Decimal} (h : decimalPrice v = .ok d) : toFloat v = .ok d.toFloat := by
  cases v with
  | text s =>
      have hs : Text.toNumeral s = some (.finite d) := by
        rw [← Text.toNumeral_of_plain (decimalPrice_plain h), String.ofList_toList]
      simp only [toFloat, hs]
  | null | bool _ | number _ | list _ | object _ => cases h

end OrderRules

end MoomooMcp
