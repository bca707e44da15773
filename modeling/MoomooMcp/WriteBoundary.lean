import MoomooMcp.PaperBoundary
import MoomooMcp.RealBoundary

namespace MoomooMcp.WriteBoundary

open Intent OrderRules Accounts PreDispatch

/-- A paper deployment with one account, all of whose components answer. -/
def paperWorld : PaperBoundary.World where
  policy := ⟨.simulate, [], [7]⟩
  grants := none
  configured := true
  late := none
  lookup := .ok none
  lookupAgain := .ok none
  epoch := "E"
  ready := .ok ()
  accounts := .ok [⟨7, "SIMULATE", [], ["US"]⟩]
  reserve := .ok ()
  insert := .ok none
  readyAgain := .ok ()
  connected := true
  fetchOrder := .ok []
  modificationsVisible := fun _ => .ok ()
  instruments := some (fun codes => .ok (codes.map (fun code => { code := code, classification := some "STOCK" })))
  cap := none
  assess := fun _ => .ok ()
  protect := .ok ()
  newRisk := .ok ()
  dispatchControls := .ok ()
  confirmControls := .ok ()
  markDispatch := .ok ()
  storeRefusal := .ok ()

/-- A REAL deployment that may only read. -/
def realWorld : RealBoundary.World where
  policy := ⟨.readOnly, [], []⟩
  grants := none
  configured := true
  late := none
  lookup := .ok none
  lateAgain := none
  lookupAgain := .ok none
  epoch := "E"
  ready := .ok ()
  connected := true
  halt := .ok ()
  accounts := .ok []
  insert := .ok none
  attempt := .ok ()
  refusalStored := true

/-- An order for as many shares. -/
def order (shares : ℤ) : Parameters where
  trdEnv := "SIMULATE"
  accId := "7"
  operationId := some "A"
  admissionEpoch := some "E"
  modifyOrderOp := none
  session := none
  others := [("code", .text "US.A"), ("price", .text "5"), ("qty", .number (.finite ⟨shares, 0⟩)), ("trd_side", .text "BUY"),
    ("order_type", .text "NORMAL"), ("time_in_force", .text "DAY"), ("adjust_limit", .number (.finite ⟨0, 0⟩)),
    ("aux_price", .null), ("trail_type", .null), ("trail_value", .null), ("trail_spread", .null), ("remark", .text "")]

example : (PaperBoundary.call paperWorld "place_order" (order 3)).result = .ok .writeStarts := by decide +kernel

end MoomooMcp.WriteBoundary
