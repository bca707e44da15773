import MoomooMcp.CanonicalNumbers
import MoomooMcp.Magnitude
import MoomooMcp.OrderContract

namespace MoomooMcp

namespace Decimal

def sign (d : Decimal) : List Char := if d.coefficient < 0 then ['-'] else []

/-- `format(value, "f")`. -/
def fixed (d : Decimal) : String := String.ofList (d.sign ++ d.flat.positional)

/-- `format(value, "g")`. -/
def general (d : Decimal) : String :=
  let r := d.round 6
  if -5 < r.adjusted ∧ r.adjusted < 6 then Intent.rendered r else String.ofList (r.sign ++ r.scientific)

/-- The digits of a whole number from its last to its first, in groups of three. -/
def grouped : List Char → List Char
  | a :: b :: c :: d :: cs => a :: b :: c :: ',' :: grouped (d :: cs)
  | cs => cs

/-- `format(value, ",.2f")`. -/
def money (q : ℚ) : String :=
  let cents := roundHalfEven (q * 100)
  let fraction := Nat.toDigits 10 (cents.natAbs % 100)
  String.ofList ((if cents < 0 then ['-'] else []) ++ (grouped (Nat.toDigits 10 (cents.natAbs / 100)).reverse).reverse ++
    '.' :: (List.replicate (2 - fraction.length) '0' ++ fraction))

/-- A number above zero of the size that floats have. -/
structure Usable (d : Decimal) : Prop where
  positive : 0 < d.value
  sized : FloatSized d.value

instance : DecidablePred FloatSized := fun q => inferInstanceAs (Decidable (10 ^ (-324 : ℤ) ≤ |q| ∧ |q| ≤ 10 ^ (309 : ℤ)))

instance (d : Decimal) : Decidable d.Usable :=
  decidable_of_iff (0 < d.value ∧ FloatSized d.value) ⟨fun h => ⟨h.1, h.2⟩, fun h => ⟨h.1, h.2⟩⟩

end Decimal

namespace TradingPolicy

open Intent OrderRules OrderContract

/-- What a guardrail refuses with. -/
def refusal (message : String) : Exc := ⟨.tradingPolicy, message, false⟩

def require (ok : Bool) (message : String) : Except Exc Unit := if ok then .ok () else .error (refusal message)

def rejected (operation reason : String) : String := operation ++ " rejected by trading guardrail: " ++ reason

abbrev Cap := {d : Decimal // d.Usable}

/-- The configured limits. Every cap is a number that can be compared with. -/
structure TradingPolicy where
  maxOrderQty : Option Decimal := none
  maxOrderNotional : List (String × Cap) := []
  symbolAllowlist : List String := []

/-- Require a configured limit to be a real, usable number. -/
def requirePositiveFinite (variableName label : String) (n : Numeral) : Except Exc Cap :=
  let refused : Except Exc Cap := .error (valueError (variableName ++ ": the " ++ label ++
    " must be a finite number greater than 0, got " ++ (Value.number n).str ++ "."))
  match n with
  | .nonFinite => refused
  | .finite d =>
      if tooLarge (.number (.finite d)) then .error overflowError
      else
        match h : d.toFloat with
        | .nonFinite => refused
        | .finite x => if hx : 0 < x.value then .ok ⟨x, hx, Decimal.toFloat_sized h hx.ne'⟩ else refused

def notionalVariable : String := "MOOMOO_MAX_ORDER_NOTIONAL_BY_CURRENCY"

/-- The caps of `caps`, after those that are validated. -/
def validateCaps (validated : List (String × Cap)) : List (String × Numeral) → Except Exc (List (String × Cap))
  | [] => .ok validated
  | (currency, amount) :: caps => do
      let code := Text.normalize currency
      check (code.length = 3 ∧ code.toList.all Char.isAlpha = true)
        (notionalVariable ++ ": '" ++ currency ++ "' is not a three-letter currency code.")
      check ((validated.lookup code).isNone)
        (notionalVariable ++ ": " ++ code ++ " appears more than once. A currency can have only one cap.")
      let cap ← requirePositiveFinite notionalVariable (code ++ " cap") amount
      validateCaps (validated ++ [(code, cap)]) caps

def exactCode (code : String) : Bool :=
  code.toList.all (fun c => decide (c.toNat < 128) && !Text.isSpace c) && code.toList.contains '.' &&
    !(code.toList.takeWhile (· ≠ '.')).isEmpty && !((code.toList.dropWhile (· ≠ '.')).drop 1).isEmpty

/-- Validate the limits, however the policy was built. -/
def postInit (maxOrderQty : Option Numeral) (maxOrderNotional : List (String × Numeral)) (symbols : List String) :
    Except Exc TradingPolicy := do
  let _ ← maxOrderQty.mapM (requirePositiveFinite "MOOMOO_MAX_ORDER_QTY" "limit")
  let caps ← validateCaps [] maxOrderNotional
  check (symbols.all exactCode) "MOOMOO_SYMBOL_ALLOWLIST: use exact market codes"
  return ⟨maxOrderQty.bind (fun n => decimalOf (.number n)), caps, symbols⟩

def TradingPolicy.notionalCapConfigured (p : TradingPolicy) : Bool := !p.maxOrderNotional.isEmpty

/-- Markets whose instruments have been verified to quote in one known currency. -/
def verifiedMarketCurrencies : List (String × String) := [("US", "USD")]

def optionClassification : String := "DRVT"

/-- The instrument's quote currency, from the verified-market table. -/
def currencyForCode (code : String) : Option String :=
  if code.toList.contains '.' then
    verifiedMarketCurrencies.lookup (Text.normalize (String.ofList (code.toList.takeWhile (· ≠ '.'))))
  else none

/-- `max` of a list that begins with `d`. -/
def largest (d : Decimal) (ds : List Decimal) : Decimal := ds.foldl (fun a b => if a.value < b.value then b else a) d

def quotes (i : InstrumentFacts) : List Decimal := [i.lastPrice, i.bidPrice, i.askPrice].filterMap id

/-- The largest usable quoted price, or none when there is none. -/
def marketReference (i : InstrumentFacts) : Option Decimal :=
  match quotes i with
  | [] => none
  | d :: ds => some (largest d ds)

/-- The number fields of an instrument are either usable or unknown. -/
structure Normalized (i : InstrumentFacts) : Prop where
  multiplier : ∀ d, i.monetaryMultiplier = some d → d.Usable
  size : ∀ d, i.contractSize = some d → d.Usable
  quoted : ∀ d ∈ quotes i, d.Usable

/-- Facts about an order whose quantity and price are numbers, read exactly. -/
structure ExactOrder where
  facts : OrderFacts
  qty : ℕ
  price : Option Decimal
  qty_eq : facts.qty = some qty
  price_eq : facts.price = price.map .finite
  normalized : ∀ leg ∈ facts.legs, Normalized leg.instrument

namespace ExactOrder

variable (o : ExactOrder)

def orderType : String := Text.normalize o.facts.orderType

def side : String := Text.normalize o.facts.trdSide

/-- The quantity the quantity cap applies to. -/
def largestLegQty : ℕ := o.qty * ((o.facts.legs.map LegFacts.qtyRatio).max?).getD 1

end ExactOrder

variable (operation : String)

/-- The instrument's quote currency, or a refusal. -/
def instrumentCurrency (i : InstrumentFacts) : Except Exc String :=
  match i.currency.filter (· ≠ "") <|> currencyForCode i.code with
  | some currency => .ok currency
  | none => .error (refusal (rejected operation ("cannot establish the currency " ++ i.code ++
      " quotes in. A market prefix is a venue, not a currency, so only verified markets (" ++
      ", ".intercalate (verifiedMarketCurrencies.map Prod.fst) ++ ") can be valued. Adding a currency cap or changing " ++
      "account reporting currency does not establish this instrument's quote currency.")))

/-- How much money one unit of quantity is worth per unit of price. -/
def monetaryMultiplier (i : InstrumentFacts) : Except Exc Decimal :=
  match i.classification with
  | none => .error (refusal (rejected operation ("the security classification of " ++ i.code ++
      " could not be established, so its value cannot be computed.")))
  | some classification =>
      if classification ∈ equityClassifications then .ok ⟨10, -1⟩
      else if classification = optionClassification then
        match i.monetaryMultiplier with
        | some multiplier => .ok multiplier
        | none => .error (refusal (rejected operation ("no verified monetary multiplier for " ++ i.code ++
            ", so one contract cannot be converted into money. Remove the notional cap to place this order.")))
      else .error (refusal (rejected operation (i.code ++ " is classified " ++ classification ++
        ", which this server does not value. Supported: ETF, STOCK, " ++ optionClassification ++ ".")))

/-- The market reference, or the refusal that names the instrument without one. -/
def requireMarketReference (i : InstrumentFacts) : Except Exc Decimal :=
  match marketReference i with
  | some reference => .ok reference
  | none => .error (refusal (rejected operation ("no usable market price for " ++ i.code ++
      ". None of last, bid or ask is a positive number, so this order's value cannot be estimated. Remove the " ++
      "notional cap to place this order.")))

def withoutLimit (orderType : String) (price : Option Decimal) : String :=
  rejected operation (orderType ++ " is a limit order type, so its value is measured at its limit price, and none was " ++
    "supplied (" ++ price.elim "None" Decimal.text ++ ").")

/-- The price a single-leg order's value is measured at. Only the limit of a buy
bounds what it may cost, so every other order also looks at the market. -/
def referencePrice (o : ExactOrder) (i : InstrumentFacts) : Except Exc Decimal :=
  if o.orderType ∈ fixedLimitTypes then
    match o.price with
    | none => .error (refusal (withoutLimit operation o.orderType none))
    | some price => do
        require (0 < price.value) (withoutLimit operation o.orderType (some price))
        if o.side = "BUY" then return price
        else return largest price [← requireMarketReference operation i]
  else if o.orderType ∈ noFixedLimitTypes then do
    let reference ← requireMarketReference operation i
    return largest reference (([o.facts.auxPrice, o.price].filterMap id).filter (fun d => 0 < d.value))
  else .error (refusal (rejected operation ("order type " ++ o.orderType ++ " is not classified as either a " ++
    "fixed-limit or a no-fixed-limit type, so its value cannot be computed. Remove the notional cap to place this order.")))

/-- An order's value, the currency it is in and what the value is called. -/
structure Valued where
  value : ℚ
  currency : String
  label : String

/-- Value a single-leg order: reference price x quantity x multiplier. -/
def assessSingleLeg (o : ExactOrder) : Except Exc Valued :=
  match o.facts.legs with
  | [] => .error (refusal (rejected operation ("no instrument facts were available for the order, so its value cannot " ++
      "be computed.")))
  | leg :: _ => do
      let currency ← instrumentCurrency operation leg.instrument
      let multiplier ← monetaryMultiplier operation leg.instrument
      let reference ← referencePrice operation o leg.instrument
      return ⟨reference.value * o.qty * multiplier.value, currency, "order notional"⟩

/-- What a leg adds to the sets that a package is judged by. -/
structure LegValue where
  currency : String
  multiplier : Decimal
  contractSize : Option Decimal

def packageLeg (leg : LegFacts) : Except Exc LegValue := do
  let i := leg.instrument
  require (i.classification = some optionClassification) (rejected operation ("leg " ++ i.code ++ " is classified " ++
    i.classification.elim "None" (fun c => "'" ++ c ++ "'") ++ ", and a combo priced as a package premium must be " ++
    "options only. A stock leg makes the package premium meaningless."))
  let currency ← instrumentCurrency operation i
  let multiplier ← monetaryMultiplier operation i
  return ⟨currency, multiplier, i.contractSize⟩

/-- Whether a set of these would have more than one member. -/
def differing {α β : Type} [DecidableEq β] (key : α → β) (xs : List α) : Bool :=
  xs.any (fun x => xs.head?.any (fun y => key x ≠ key y))

def shown {α : Type} [DecidableEq α] (le : α → α → Bool) (text : α → String) (xs : List α) : String :=
  "[" ++ ", ".intercalate ((xs.dedup.mergeSort le).map text) ++ "]"

def shownNumbers (ds : List Decimal) : String := shown (fun a b => decide (a.value ≤ b.value)) Decimal.text ds

/-- The sizes in the refusal are sorted, which fails where one of them is unknown. -/
def differingSizes (sizes : List (Option Decimal)) : Exc :=
  if sizes.all Option.isSome then
    refusal (rejected operation ("the combo's legs have differing contract sizes (" ++
      shownNumbers (sizes.filterMap id) ++ "), so they are not compatible in one package."))
  else ⟨.type, "'<' not supported between instances of 'NoneType' and 'float'", false⟩

/-- The terms that the legs of a package have in common. -/
def commonTerms (legs : List LegValue) : Except Exc LegValue := do
  require (!differing LegValue.currency legs) (rejected operation ("the combo's legs are valued in more than one " ++
    "currency (" ++ shown (fun a b => decide (a ≤ b)) (fun c => "'" ++ c ++ "'") (legs.map LegValue.currency) ++
    "), so one package premium cannot be stated."))
  require (!differing (fun leg => leg.multiplier.value) legs) (rejected operation ("the combo's legs have differing " ++
    "monetary multipliers (" ++ shownNumbers (legs.map LegValue.multiplier) ++
    "), so the net price does not describe one package."))
  if differing (fun leg => leg.contractSize.map Decimal.value) legs then
    .error (differingSizes operation (legs.map LegValue.contractSize))
  else
    match legs with
    | [] => .error ⟨.other, "", false⟩
    | leg :: _ => .ok leg

/-- Value a combo as its package premium. -/
def assessComboPremium (o : ExactOrder) : Except Exc Valued := do
  require (o.orderType ∈ fixedLimitTypes) (rejected operation ("a combo with order type " ++ o.orderType ++
    " has no fixed net limit price, so its package premium cannot be computed. Remove the notional cap to place this order."))
  require (!o.facts.legs.isEmpty) (rejected operation "no instrument facts were available for the combo's legs.")
  match o.price with
  | none => .error (refusal (rejected operation "the combo's net price is required to compute its package premium."))
  | some price =>
      let legs ← o.facts.legs.mapM (packageLeg operation)
      let terms ← commonTerms operation legs
      return ⟨|price.value| * o.qty * terms.multiplier.value, terms.currency, "package premium"⟩

namespace TradingPolicy

variable (p : TradingPolicy)

def checkAllowlist : List LegFacts → Except Exc Unit
  | [] => .ok ()
  | leg :: legs => do
      require (leg.instrument.code ∈ p.symbolAllowlist)
        (operation ++ ": " ++ leg.instrument.code ++ " is outside the symbol allowlist")
      checkAllowlist legs

def checkQuantity (o : ExactOrder) : Except Exc Unit :=
  match p.maxOrderQty with
  | none => .ok ()
  | some limit => require ((o.largestLegQty : ℚ) ≤ limit.value) (rejected operation
      ((if o.facts.isCombo then "largest leg quantity " else "order quantity ") ++ toString o.largestLegQty ++
        " exceeds the configured maximum of " ++ limit.general ++ "."))

def valued (o : ExactOrder) : Except Exc Valued :=
  if o.facts.isCombo then assessComboPremium operation o else assessSingleLeg operation o

def checkNotional (o : ExactOrder) : Except Exc Unit := do
  let v ← valued operation o
  match p.maxOrderNotional.lookup v.currency with
  | none => .error (refusal (rejected operation ("the instrument is valued in " ++ v.currency ++
      ", which has no configured cap in " ++ notionalVariable ++ ". While any notional cap is configured, an order in " ++
      "an uncapped currency is refused.")))
  | some cap => require (v.value ≤ cap.val.value) (rejected operation (v.label ++ " " ++ Decimal.money v.value ++ " " ++
      v.currency ++ " exceeds the configured maximum of " ++ Decimal.money cap.val.value ++ " " ++ v.currency ++ "."))

/-- Enforce the quantity and notional guardrails on one order. -/
def assessOrder (o : ExactOrder) : Except Exc Unit := do
  if p.symbolAllowlist ≠ [] then checkAllowlist operation p o.facts.legs
  checkQuantity operation p o
  if p.notionalCapConfigured then checkNotional operation p o

end TradingPolicy

structure Terms where
  price : Decimal
  multiplier : Decimal
  currency : String
  label : String

structure Estimate where
  amount : String
  currency : String
  label : String

def noLeg : Exc := ⟨.other, "list index out of range", false⟩

def estimateTerms (o : ExactOrder) : Except Exc Terms :=
  if o.facts.isCombo then do
    let v ← assessComboPremium operation o
    match o.facts.legs, o.price with
    | leg :: _, some price => do
        let multiplier ← monetaryMultiplier operation leg.instrument
        return ⟨⟨|price.coefficient|, price.exponent⟩, multiplier, v.currency, v.label⟩
    | _, _ => .error noLeg
  else
    match o.facts.legs with
    | [] => .error noLeg
    | leg :: _ => do
        let currency ← instrumentCurrency operation leg.instrument
        let multiplier ← monetaryMultiplier operation leg.instrument
        let price ← referencePrice operation o leg.instrument
        return ⟨price, multiplier, currency, "submission notional"⟩

/-- The product in a context with room for the digits of all the factors. -/
def product (price quantity multiplier : Decimal) : Option Decimal := do
  let prec := max 28 (price.length + quantity.length + multiplier.length)
  let cost ← Decimal.mul prec price quantity
  Decimal.mul prec cost multiplier

/-- Use the existing conservative valuation with exact decimal products. -/
def estimateOrder (o : ExactOrder) : Except Exc Estimate := do
  let terms ← estimateTerms operation o
  match product terms.price ⟨o.qty, 0⟩ terms.multiplier with
  | none => .error ⟨.other, "decimal overflow", false⟩
  | some value =>
      require (0 ≤ value.value) (operation ++ ": valuation is invalid")
      return ⟨value.fixed, terms.currency, terms.label⟩

end TradingPolicy

end MoomooMcp
