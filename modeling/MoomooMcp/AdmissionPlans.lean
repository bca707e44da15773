import MoomooMcp.PaperAdmission
import MoomooMcp.ReadScope
import MoomooMcp.QuotaPlans
import MoomooMcp.SdkCalls

namespace MoomooMcp.Admission

open Intent OrderRules OrderContract Accounts ClientAuthorization PreDispatch BrokerDispatch SdkCalls

/-- What is reserved before a call of the service is made. -/
structure AdmissionPlan where
  requests : List QuotaRequest := []
  writeOperation : Option String := none

/-- A plan, and the parameters that the call is then made with. -/
abbrev Prepared := AdmissionPlan × Parameters

def gateway (operation : String) : QuotaRequest := ⟨operation, none, 1⟩

def ofAccount (operation : String) (account : Account) : QuotaRequest := ⟨operation, some (account : ℤ), 1⟩

/-- `[QuotaRequest(..)] if asks else []`. -/
def requestIf (asks : Bool) (r : QuotaRequest) : List QuotaRequest := if asks then [r] else []

def checkEpoch (p : Parameters) (epoch : String) : Except Exc Unit :=
  check (p.admissionEpoch = some epoch) "Unknown non-current-epoch token cannot be accounted for"

namespace Paper

def requests (method : String) (kind : Kind) (account : Account) : List QuotaRequest :=
  requestIf (decide (kind ≠ .cancel)) (gateway "get_market_snapshot") ++
    requestIf (decide (kind ≠ .place)) (ofAccount "order_list_query" account) ++
    [ofAccount (Real.operation method).text account]

/-- A simulated mutation. An operation that is known gets its stored outcome, without quota. -/
def prepare (w : PaperBoundary.World) (method : String) (p : Parameters) : Except Exc Prepared := do
  check (method ≠ "place_combo_order") "Combo orders are outside version 1 paper execution scope"
  check w.configured "Persistent paper journal is not configured"
  let (kind, fields) ← PaperRequests.paperParameters method p
  validateToken p
  PaperRequests.schema kind fields
  if w.late.isSome then return (⟨[], some method⟩, p)
  if (← stored w.lookup).isSome then return (⟨[], some method⟩, p)
  checkEpoch p w.epoch
  w.ready.lift
  let account ← paperAccount w.policy w.accounts.lift w.grants p.accId
  return (⟨requests method kind account, some method⟩, { p with accId := toString account })

end Paper

namespace Real

open RealBoundary

/-- The configuration that decides what a REAL mutation asks for. -/
structure Config where
  /-- Whether a cap makes the facts of the instruments of a combination necessary. -/
  valued : Bool
  /-- Whether the gateway is unlocked for a write alone. -/
  jit : Bool

/-- Whether a mutation adds exposure, as it is read off the method. -/
def adds (method : String) (p : Parameters) : Bool :=
  method = "place_order" ∨ method = "place_combo_order" ∨
    (method = "modify_order" ∧ exposingOps.contains (requestedOp p) = true)

def requests (c : Config) (method : String) (p : Parameters) (account : Account) : List QuotaRequest :=
  requestIf (adds method p && (method = "place_order" || method = "modify_order" || c.valued))
      (gateway "get_market_snapshot") ++
    requestIf (method = "modify_order" && adds method p) (ofAccount "order_list_query" account) ++
    requestIf c.jit ⟨"unlock_trade", none, 2⟩ ++ [ofAccount (SdkCalls.Real.operation method).text account]

/-- A REAL mutation of an operation that is not known. -/
def prepareNew (c : Config) (w : World) (method : String) (p : Parameters) : Except Exc Prepared := do
  validateRealRequest method p
  checkEpoch p w.epoch
  w.ready.lift
  (if w.connected then .ok () else .error ⟨.runtime, "Trade context not connected", false⟩ : Except Exc Unit)
  let market ← TradePreparation.preparationMarket method p
  (if adds method p then w.halt.lift else .ok () : Except Exc Unit)
  let account ← resolveAccount w.policy w.accounts.lift w.grants "REAL" market p.accId true
  return (⟨requests c method p account, some method⟩, { p with accId := toString account })

def prepare (c : Config) (w : World) (method : String) (p : Parameters) : Except Exc Prepared := do
  check w.configured "Persistent REAL journal is not configured"
  -- `retry`, whose own scope names no lookup.
  let kind ← inScope method false false (front w method p)
  match ← rowOf w.late w.lookup with
  | some row =>
      let _ ← retryRow w kind p row
      return (⟨[], some method⟩, p)
  | none => prepareNew c w method p

end Real

/-- `prepare_trade_call`, of a mutation. -/
def prepareTradeCall (w : TradeExecution.World) (jit : Bool) (method : String) (p : Parameters) : Except Exc Prepared :=
  inScope method false true (do
    w.paper.policy.checkWrite method p.trdEnv
    if Text.normalize p.trdEnv = "REAL" then Real.prepare ⟨w.real.valued, jit⟩ w.real.boundary method p
    else Paper.prepare w.paper method p)

end MoomooMcp.Admission

namespace MoomooMcp.Accounts

open Intent ClientAuthorization

variable {accId : String} {a b : Account} {policy : AccountPolicy} {grants : Grants} {accounts : Except Exc (List AccountRow)}
  {env : String} {market : Option String} {write : Bool}

/-- A text of decimal digits reads alike as a number of any kind. -/
theorem toInt_decimal {text : String} (h : Text.isDecimal text = true) :
    Text.toInt text = if 4300 < text.length then none else some (Text.toNat text : ℤ) := by
  rw [Text.isDecimal, Bool.and_eq_true, List.all_eq_true] at h
  obtain ⟨hne, hdigits⟩ := h
  have hplain : ∀ c ∈ text.toList, Text.isPlain c = true := fun c hc => by rw [Text.isPlain, hdigits c hc]; rfl
  have hfilter : text.toList.filter (· ≠ '_') = text.toList := by
    refine List.filter_eq_self.mpr (fun c hc => ?_)
    have hdigit := hdigits c hc
    simp only [decide_eq_true_eq]
    rintro rfl
    exact absurd hdigit (by decide)
  have hempty : text.toList.isEmpty = false := by simpa using hne
  have hsigned : Text.signed text.toList = (false, text.toList) := by
    cases hcs : text.toList with
    | nil => simp [hcs] at hempty
    | cons c rest => exact Text.signed_of_digit (hdigits c (by rw [hcs]; exact List.mem_cons_self))
  rw [Text.toInt, Text.strip_of_solid (fun c hc => Text.isPlain_solid (hplain c hc)), hsigned]
  simp only [hfilter, Text.underscored_of_plain hplain, List.all_eq_true.mpr hdigits, String.length_toList, hempty,
    Bool.not_true, Bool.false_or, decide_eq_true_eq]
  rfl

theorem strip_decimal {text : String} (h : Text.isDecimal text = true) : Text.strip text.toList = text.toList := by
  rw [Text.isDecimal, Bool.and_eq_true, List.all_eq_true] at h
  refine Text.strip_of_solid (fun c hc => Text.isPlain_solid ?_)
  rw [Text.isPlain, h.2 c hc]
  rfl

/-- What is an exact identifier is an integer, and the same one. -/
theorem intAccountId_of_exact (h : exactAccountId accId = .ok a) : intAccountId accId = .ok a := by
  rw [exactAccountId, exactAccount] at h
  by_cases hdecimal : Text.isDecimal (String.ofList (Text.strip accId.toList)) = true
  · have hint : Text.toInt accId = Text.toInt (String.ofList (Text.strip accId.toList)) := by
      rw [Text.toInt, Text.toInt, String.toList_ofList, Text.strip_strip]
    rw [hdecimal, Bool.not_true, if_neg (by simp)] at h
    by_cases hlong : 4300 < (String.ofList (Text.strip accId.toList)).length
    · rw [if_pos hlong] at h
      cases h
    · rw [if_neg hlong] at h
      cases h
      rw [intAccountId, hint, toInt_decimal hdecimal, if_neg hlong]
  · rw [Bool.eq_false_iff.mpr hdecimal] at h
    cases h

theorem intAccountId_toString (h : intAccountId (toString a) = .ok b) : b = a := by
  rw [intAccountId, toInt_decimal (isDecimal_toString a), toNat_toString] at h
  split_ifs at h
  cases h
  rfl

theorem exactAccountId_toString (h : exactAccountId (toString a) = .ok b) : b = a :=
  intAccountId_toString (intAccountId_of_exact h)

/-- Where an account is named, it is the one that is resolved. -/
theorem resolveAccount_named (ha : a ≠ 0) (h : resolveAccount policy accounts grants env market (toString a) write = .ok b) :
    b = a := by
  obtain ⟨requested, hrequested, h⟩ := Checks.bind_ok.mp h
  cases intAccountId_toString hrequested
  have htarget := (resolveExact_ok h).2.2
  rwa [if_neg ha] at htarget

theorem paperAccount_named (ha : a ≠ 0) (h : paperAccount policy accounts grants (toString a) = .ok b) : b = a := by
  obtain ⟨-, -, requested, rows, hrequested, -, htarget⟩ := paperAccount_ok h
  cases exactAccountId_toString hrequested
  rwa [if_neg ha] at htarget

theorem resolveReadAccount_named {environment : String} (ha : a ≠ 0)
    (h : resolveReadAccount accounts grants env (toString a) = .ok (environment, b)) : b = a := by
  obtain ⟨_, _, requested, -, hrequested, -, -, htarget⟩ := TradePreparation.resolveReadAccount_ok h
  cases exactAccountId_toString hrequested
  rwa [if_neg ha] at htarget

end MoomooMcp.Accounts

namespace MoomooMcp.SdkCalls

open Intent OrderRules OrderContract Accounts PreDispatch BrokerDispatch

/-- The calls of what is asked under a condition. -/
def callsIf (asks : Bool) (c : Call) : Multiset Call := if asks then {c} else 0

variable {α : Type} {instruments : Option (List String → Answer (List InstrumentFacts))} {y : Except Exc α}

/-- A lookup that is not wired refuses what needs it. -/
theorem quoting_costs (h : instruments = none → ∀ a, y ≠ .ok a) : Metered.Costs {snapshot} (quoting instruments y) := by
  refine .asking (fun a ha => ?_)
  cases instruments with
  | none => exact absurd ha (h rfl a)
  | some _ => rfl

theorem facts_unwired {operation session : String} {code orderType trdSide qty price auxPrice : Value} :
    ∀ a, singleLegFacts none operation code orderType trdSide qty price auxPrice session ≠ .ok a := by
  intro a h
  obtain ⟨_, h, -⟩ := Checks.bind_ok.mp h
  cases h

namespace Paper

open PaperBoundary

variable {w : World} {kind : Kind} {fields : Fields} {account : Account} {method : String} {p : Parameters}

/-- The calls of a complete run. -/
def cost (kind : Kind) (account : Account) : Multiset Call :=
  callsIf (decide (kind ≠ .place)) (target account) + callsIf (decide (kind ≠ .cancel)) snapshot +
    {sending (operation kind) account}

theorem verified_costs {code : String} :
    Metered.Costs {snapshot} (quoting w.instruments (verifiedInstrument w code)) := by
  refine quoting_costs (fun hnone a ha => ?_)
  rw [verifiedInstrument, hnone] at ha
  cases ha

theorem review_costs : Metered.Costs (callsIf (decide (kind ≠ .place)) (target account) +
    callsIf (decide (kind ≠ .cancel)) snapshot) (review w kind fields account) := by
  refine .after (fun _ _ => .bind .asked (fun order _ => .after (fun _ _ => .ite (fun hcancel => ?_) (fun hcancel => ?_))))
  · rw [hcancel]
    exact .pure none
  · rw [callsIf, if_pos (by simpa using hcancel)]
    exact .before verified_costs (fun _ _ => .pure _)

theorem prepare_costs : Metered.Costs (callsIf (decide (kind ≠ .place)) (target account) +
    callsIf (decide (kind ≠ .cancel)) snapshot) (prepare w kind fields account) := by
  refine .before review_costs (fun found _ => ?_)
  cases found with
  | none => exact .pure none
  | some order => exact .after (fun _ _ => .pure _)

theorem dispatch_costs : Metered.Costs (cost kind account) (dispatch w kind fields account) := by
  refine .bind (.after (fun _ _ => .before prepare_costs (fun _ _ => ?_))) (fun _ _ => .call _ _)
  exact .after (fun _ _ => .after (fun _ _ => .after (fun _ _ => .after (fun _ _ => .lift _))))

theorem run_costs (h : entered w method p = .ok (some (kind, fields, account))) :
    Metered.Costs (cost kind account) (run w method p) := by
  refine .after (fun found hfound => ?_)
  cases h.symm.trans hfound
  exact .before dispatch_costs (fun _ _ => .pure _)

end Paper

end MoomooMcp.SdkCalls
