import Mathlib.Data.Rat.Defs

namespace MoomooMcp

abbrev OperationId := String
abbrev Epoch := String
abbrev Tag := String
abbrev Account := ℕ

inductive Environment
  | simulate
  | real
  deriving DecidableEq, Repr

def Environment.text : Environment → String
  | .simulate => "SIMULATE"
  | .real => "REAL"

inductive Kind
  | place
  | placeCombo
  | modify
  | cancel
  deriving DecidableEq, Repr

inductive ModifyOp
  | normal
  | cancel
  | disable
  | enable
  | delete
  deriving DecidableEq, Repr

inductive Side
  | buy
  | sell
  | other (text : String)
  deriving DecidableEq, Repr

inductive OrderType
  | normal
  | other (text : String)
  deriving DecidableEq, Repr

inductive TimeInForce
  | day
  | other (text : String)
  deriving DecidableEq, Repr

inductive Session
  | rth
  | other (text : String)
  deriving DecidableEq, Repr

inductive OrderStatus
  | filledAll
  | cancelledAll
  | cancelledPart
  | failed
  | deleted
  | rejected
  | unsubmitted
  | waitingSubmit
  | submitting
  | submitFailed
  | submitted
  | filledPart
  | cancellingPart
  | cancellingAll
  | disabled
  | other (text : String)
  deriving DecidableEq, Repr

def OrderStatus.terminalBroker : OrderStatus → Bool
  | .filledAll | .cancelledAll | .cancelledPart | .failed | .deleted | .rejected => true
  | _ => false

def OrderStatus.activeBroker : OrderStatus → Bool
  | .unsubmitted | .waitingSubmit | .submitting | .submitFailed | .submitted | .filledPart
  | .cancellingPart | .cancellingAll | .disabled => true
  | _ => false

/-- The digits are numerals of `Fin 10`, whose zero is that of the literal. -/
instance neZeroTen : @NeZero ℕ Zero.ofOfNat0 10 := ⟨by decide⟩

/-- A broker identifier as text. Decimal text is kept as its digits, so that
comparing texts and comparing the integers they denote stay different things. -/
inductive OrderId
  | decimal (digits : List (Fin 10))
  | text (text : String)
  deriving DecidableEq, Repr

def OrderId.value : OrderId → ℕ
  | .decimal digits => digits.foldl (fun n d => 10 * n + d.val) 0
  | .text _ => 0

/-- A security code `market.symbol`; a code without a dot has no market. -/
structure Code where
  market : Option String
  symbol : String
  deriving DecidableEq, Repr

def Code.us (c : Code) : Bool := c.market = some "US"

inductive PositionId
  | absent
  | number (n : ℤ)
  | malformed
  deriving DecidableEq, Repr

/-- A combo leg as read; `none` is a field that is missing or not of its type. -/
structure Leg where
  code : Option Code
  trdSide : Option Side
  qtyRatio : Option ℚ
  positionId : PositionId
  deriving DecidableEq, Repr

/-- One broker order row. A numeric field is `none` when it is missing, not a
number or not finite, and otherwise the exact value of its decimal text.
`serializable` says whether the whole row can be written as JSON. -/
structure BrokerOrder where
  orderId : Option OrderId
  orderStatus : Option OrderStatus := none
  code : Option Code := none
  trdSide : Option Side := none
  orderType : Option OrderType := none
  qty : Option ℚ := none
  price : Option ℚ := none
  dealtQty : Option ℚ := none
  dealtAvgPrice : Option ℚ := none
  remark : Option Tag := none
  timeInForce : Option TimeInForce := none
  session : Option Session := none
  auxPrice : Option ℚ := none
  trailType : Option String := none
  trailValue : Option ℚ := none
  trailSpread : Option ℚ := none
  comboLegs : Option (List Leg) := none
  trdEnv : Option Environment := none
  accId : Option Account := none
  serializable : Bool := true
  deriving DecidableEq, Repr

structure Position where
  code : Option Code
  qty : Option ℚ
  trdEnv : Option Environment := none
  accId : Option Account := none
  deriving DecidableEq, Repr

/-- The named parameters of a mutation, both as requested and as merged for
dispatch. A parameter that is absent or null is `none`. -/
structure Params where
  orderId : Option OrderId := none
  modifyOrderOp : Option ModifyOp := none
  code : Option Code := none
  trdSide : Option Side := none
  orderType : Option OrderType := none
  qty : Option ℚ := none
  price : Option ℚ := none
  timeInForce : Option TimeInForce := none
  session : Option Session := none
  adjustLimit : Option ℚ := none
  auxPrice : Option ℚ := none
  trailType : Option String := none
  trailValue : Option ℚ := none
  trailSpread : Option ℚ := none
  comboLegs : Option (List Leg) := none
  remark : Option Tag := none
  trdEnv : Option Environment := none
  accId : Option Account := none
  deriving DecidableEq, Repr

/-- A mutation as some caller presents it. Account `0` asks for the only
eligible one. -/
structure Request where
  operationId : OperationId
  epoch : Epoch
  kind : Kind
  params : Params
  account : Account := 0
  deriving DecidableEq, Repr

/-- The row an acknowledged mutation returns. -/
structure Receipt where
  orderId : Option OrderId
  orderStatus : Option OrderStatus := none
  deriving DecidableEq, Repr

end MoomooMcp
