import MoomooMcp.PreDispatch

namespace MoomooMcp.PaperBoundary

open Intent OrderErrors OrderRules OrderContract Accounts ClientAuthorization PreDispatch PaperIdentity

abbrev Fields := List (String × Value)

/-- What a paper mutation finds: its configuration, the journal under the lookups of
its operation, and the answers of the other components, in the order they are asked. -/
structure World where
  policy : AccountPolicy
  grants : Grants
  configured : Bool
  /-- The identity of an operation whose outcome was observed but not stored. -/
  late : Option StoredRow
  lookup : Except String (Option StoredRow)
  lookupAgain : Except String (Option StoredRow)
  epoch : String
  ready : Answer Unit
  accounts : Answer (List AccountRow)
  reserve : Answer Unit
  /-- The row that was there already, if the operation was admitted in between. -/
  insert : Answer (Option StoredRow)
  readyAgain : Answer Unit
  connected : Bool
  fetchOrder : Answer Fields
  modificationsVisible : Fields → Answer Unit
  instruments : Option (List String → Answer (List InstrumentFacts))
  cap : Option Decimal
  assess : OrderFacts → Answer Unit
  protect : Answer Unit
  newRisk : Answer Unit
  dispatchControls : Answer Unit
  confirmControls : Answer Unit
  markDispatch : Answer Unit
  storeRefusal : Answer Unit

def World.may (w : World) (account : Account) : Bool := accountAccessAllowed w.grants "SIMULATE" (toString account) true

def terminalBroker : List String := ["FILLED_ALL", "CANCELLED_ALL", "CANCELLED_PART", "FAILED", "DELETED", "REJECTED"]

/-- The order as it is to be: the request itself, or the order it names. -/
def targetOrder (w : World) (kind : Kind) (fields : Fields) : Except Exc Fields :=
  if kind = .place then .ok fields
  else do
    let order ← w.fetchOrder.lift
    check ((Value.get order "time_in_force").str = "DAY" ∧ (Value.get order "order_type").str = "NORMAL" ∧
      (Value.get order "session").str = "RTH") "Target order is outside verified DAY/regular-hours paper scope"
    if kind = .modify then
      check ((Value.get order "order_status").str ∉ terminalBroker) "Target order is terminal"
      (w.modificationsVisible order).lift
    return order

def verifiedInstrument (w : World) (code : String) : Except Exc InstrumentFacts :=
  match w.instruments with
  | none => .error (valueError "Instrument classification cannot be verified")
  | some find => do
      match ← (find [code]).lift with
      | [instrument] =>
          check (instrument.code = code && instrument.equity) "Paper execution requires a verified US stock or ETF"
          return instrument
      | _ => .error (valueError "Paper execution requires a verified US stock or ETF")

/-- What the terms are checked against. A cancellation has no terms. -/
def review (w : World) (kind : Kind) (fields : Fields) : Except Exc (Option (Fields × InstrumentFacts)) := do
  check w.connected "Trade context not connected"
  let order ← targetOrder w kind fields
  check ("US.".toList.isPrefixOf (Value.get order "code").str.toList &&
    ["BUY", "SELL"].contains (Value.get order "trd_side").str) "Target is outside US equity paper scope"
  if kind = .cancel then return none
  else return some (order, ← verifiedInstrument w (Value.get order "code").str)

def quantity (fields order : Fields) : Value := (fields.lookup "qty").getD (Value.get order "qty")

/-- `math.isfinite` converts its argument, and the conversion of an integer can overflow. -/
def checkQuantity (qty : Value) : Except Exc Decimal :=
  if tooLarge qty then .error overflowError
  else
    match qty with
    | .number (.finite d) => do
        check (0 < d.value ∧ d.value.den = 1) "Paper quantity must be a positive whole number"
        return d
    | _ => .error (valueError "Paper quantity must be a positive whole number")

/-- `int(qty)`, which reads a float itself and not its text. -/
def shares (qty : Decimal) : ℕ := ⌊qty.amount⌋.toNat

/-- The facts of the order that results. No trigger price is among them. -/
def orderFacts (order : Fields) (instrument : InstrumentFacts) (qty number : Decimal) : OrderFacts :=
  ⟨"NORMAL", (Value.get order "trd_side").str, some (shares qty), [⟨instrument, 1⟩], some number.toFloat, none, false⟩

/-- `params.get("price", str(order.get("price")))`. -/
def priceText (fields order : Fields) : Value := (fields.lookup "price").getD (.text (Value.get order "price").str)

def checkTerms (w : World) (kind : Kind) (fields order : Fields) (instrument : InstrumentFacts) :
    Except Exc OrderFacts := do
  let qty ← checkQuantity (quantity fields order)
  let number ← decimalPrice (priceText fields order)
  validateInstrumentOrder ("paper " ++ opType kind) instrument (quantity fields order) (.text "NORMAL")
    (.number (.finite number)) .null
  check (w.cap.all (fun cap => number.value * qty.value ≤ cap.value)) "Paper order exceeds the USD notional cap"
  (w.assess (orderFacts order instrument qty number)).lift
  return orderFacts order instrument qty number

/-- `_prepare`: the facts it assesses. A cancellation has none. -/
def prepare (w : World) (kind : Kind) (fields : Fields) : Except Exc (Option OrderFacts) := do
  match ← review w kind fields with
  | none => return none
  | some (order, instrument) => return some (← checkTerms w kind fields order instrument)

/-- What the admitted operation passes before its write. -/
def dispatchChecks (w : World) (kind : Kind) (fields : Fields) : Except Exc Unit := do
  w.readyAgain.lift
  let _ ← prepare w kind fields
  w.protect.lift
  if kind ≠ .cancel then w.newRisk.lift
  w.dispatchControls.lift
  w.confirmControls.lift
  w.markDispatch.lift

/-- `_retry`. -/
def retry (w : World) (kind : Kind) (fields : Fields) (accId : String) (row : StoredRow) : Except Exc Passed := do
  let requested ← exactAccountId accId
  checkAccountAccess w.grants "SIMULATE" (toString row.account) true
  let proposed ← canonicalizeRequest "SIMULATE" (if requested = 0 then row.account else requested) (opType kind) fields
  storedResult row proposed

/-- What is checked before the journal is asked. -/
def front (w : World) (kind : Kind) (fields : Fields) (p : Parameters) : Except Exc Unit := do
  w.policy.checkWrite (opType kind) "SIMULATE"
  validateToken p
  PaperRequests.schema kind fields

/-- The admission of an operation that the journal does not hold: none once it is
admitted, or the stored result of the row that came in between. -/
def admitNew (w : World) (kind : Kind) (fields : Fields) (p : Parameters) : Except Exc (Option Passed) := do
  if p.admissionEpoch ≠ some w.epoch then
    .error ⟨.executionConflict, "Unknown non-current-epoch token cannot be accounted for; do not refresh it", false⟩
  w.ready.lift
  let account ← paperAccount w.policy w.accounts.lift w.grants p.accId
  let _ ← canonicalizeRequest "SIMULATE" account (opType kind) fields
  w.reserve.lift
  match ← w.insert.lift with
  | some row => return some (← retry w kind fields p.accId row)
  | none => return none

/-- What is done under the admission lock. -/
def admission (w : World) (kind : Kind) (fields : Fields) (p : Parameters) : Except Exc (Option Passed) := do
  match ← stored w.lookupAgain with
  | some row => return some (← retry w kind fields p.accId row)
  | none => admitNew w kind fields p

/-- The admitted operation, up to its write. -/
def dispatch (w : World) (kind : Kind) (fields : Fields) : Outcome :=
  let operation := "paper " ++ opType kind
  match dispatchChecks w kind fields with
  | .ok () => ⟨.ok .writeStarts, true, false⟩
  | .error e =>
      -- The refusal is stored first. If that fails, its failure is what is raised.
      match w.storeRefusal.lift with
      | .ok () => ⟨inScope operation true false (.error e), true, true⟩
      | .error e' => ⟨inScope operation true false (.error e'), true, false⟩

/-- An operation that the first lookup has not found. -/
def unknownOperation (w : World) (kind : Kind) (fields : Fields) (p : Parameters) : Outcome :=
  match inScope ("paper " ++ opType kind) false true (admission w kind fields p) with
  | .error e => ⟨.error e, false, false⟩
  | .ok (some passed) => ⟨.ok passed, false, false⟩
  | .ok none => dispatch w kind fields

/-- `_execute`, up to its write. -/
def execute (w : World) (kind : Kind) (fields : Fields) (p : Parameters) : Outcome :=
  match inScope ("paper " ++ opType kind) false false (front w kind fields p) with
  | .error e => ⟨.error e, false, false⟩
  | .ok () =>
      match w.late with
      | some row => ⟨retry w kind fields p.accId row, false, false⟩
      | none =>
          match stored w.lookup with
          | .error e => ⟨.error e, false, false⟩
          | .ok (some row) => ⟨retry w kind fields p.accId row, false, false⟩
          | .ok none => unknownOperation w kind fields p

/-- The scope in which a public method checks its own arguments. -/
def methodScope (method : String) : String := if method = "place_order" then method else "paper " ++ method

def opening (w : World) (kind : Kind) : Except Exc Unit := do
  w.policy.checkWrite (opType kind) "SIMULATE"
  check w.configured "Persistent paper journal is not configured; no unjournaled paper writes are permitted"

def paperExecute (w : World) (kind : Kind) (fields : Fields) (p : Parameters) : Outcome :=
  match inScope ("paper " ++ opType kind) false false (opening w kind) with
  | .error e => ⟨.error e, false, false⟩
  | .ok () => execute w kind fields p

/-- The public methods for the simulated environment. -/
def call (w : World) (method : String) (p : Parameters) : Outcome :=
  match inScope (methodScope method) false false (PaperRequests.paperRequest w.policy method p) with
  | .error e => ⟨.error e, false, false⟩
  | .ok (kind, fields) => paperExecute w kind fields p

variable {w : World} {kind : Kind} {fields order : Fields} {p : Parameters} {method accId env op : String} {row : StoredRow}
  {account : Account} {instrument : InstrumentFacts}

mutual

theorem value_canonical : ∀ (key : String) (v : Value), ¬Raises NotValue (canonical key v)
  | key, v => by
      rw [canonical.eq_def]
      refine Raises.not_ite (Raises.not_bind value_price (fun _ _ => Raises.of_pure _)) ?_
      cases v with
      | list vs => exact Raises.not_bind (value_items vs) (fun _ _ => Raises.of_pure _)
      | object f => exact Raises.not_bind (value_fields f) (fun _ _ => Raises.of_pure _)
      | null | bool _ | number _ | text _ => exact Raises.of_ok _

theorem value_items : ∀ vs : List Value, ¬Raises NotValue (canonicalItems vs)
  | [] => Raises.of_ok _
  | v :: vs => by
      rw [canonicalItems]
      refine Raises.not_bind (value_canonical "" v) (fun _ _ => ?_)
      exact Raises.not_bind (value_items vs) (fun _ _ => Raises.of_pure _)

theorem value_fields : ∀ f : Fields, ¬Raises NotValue (PaperIdentity.canonicalFields f)
  | [] => Raises.of_ok _
  | (k, v) :: f => by
      rw [PaperIdentity.canonicalFields]
      refine Raises.not_bind (value_canonical k v) (fun _ _ => ?_)
      exact Raises.not_bind (value_fields f) (fun _ _ => Raises.of_pure _)

end

theorem value_request : ¬Raises NotValue (canonicalizeRequest env account op fields) :=
  Raises.not_bind (value_canonical _ _) (fun _ _ => value_dumps)

/-- The parameters have a canonical text: their integers are not too long. -/
def Writable (fields : Fields) : Prop := ∃ f, PaperIdentity.canonicalFields fields = .ok f ∧ Json.allowedFields f = .ok ()

theorem written_iff : (∃ s, canonicalizeRequest env account op fields = .ok s) ↔ Writable fields := by
  constructor
  · rintro ⟨s, hs⟩
    obtain ⟨f, -, hf, ha, -, -⟩ := canonicalizeRequest_loads hs
    exact ⟨f, hf, ha⟩
  · rintro ⟨f, hf, ha⟩
    exact canonicalizeRequest_written hf ha

theorem not_stray_schema : ¬Raises Stray (PaperRequests.schema kind fields) := by
  have hwhole : ∀ v, ¬Raises Stray (PaperRequests.whole v) := by
    intro v
    unfold PaperRequests.whole
    split
    · exact not_stray_check
    · simp
  have hplace : ¬Raises Stray (PaperRequests.placeSchema fields) :=
    Raises.not_bind not_stray_check (fun _ _ => Raises.not_bind not_stray_check (fun _ _ => not_stray_check))
  have htarget : ¬Raises Stray (PaperRequests.targetSchema kind fields) :=
    Raises.not_bind not_stray_check (fun _ _ => not_stray_check)
  have hrest := Raises.not_ite (p := kind = .place) hplace htarget
  have hquantity := Raises.not_ite (p := PaperRequests.has fields "qty" = true)
    (Raises.not_bind (hwhole (Value.get fields "qty")) (fun _ _ => hrest)) hrest
  exact Raises.not_ite (Raises.not_bind (not_stray_of_value value_price) (fun _ _ => hquantity)) hquantity

theorem not_stray_given : ¬Raises Stray (PaperRequests.paperRequest w.policy method p) := by
  have hsession : ∀ session trdEnv, ¬Raises Stray (normalizeOrderSession session trdEnv) := by
    intro session trdEnv
    unfold normalizeOrderSession
    dsimp only
    split_ifs <;> simp [sessionError]
  unfold PaperRequests.paperRequest
  refine Raises.not_ite (Raises.not_bind (hsession _ _) (fun _ _ => Raises.of_pure _)) (Raises.not_ite ?_ (Raises.not_ite ?_ ?_))
  · refine Raises.not_bind not_stray_write (fun _ _ => Raises.not_bind not_stray_check (fun _ _ => ?_))
    exact Raises.not_bind not_stray_check (fun _ _ => Raises.not_ite (Raises.of_pure _) (Raises.of_pure _))
  · exact Raises.of_ok _
  · exact Raises.not_bind not_stray_write (fun _ _ => by simp)

theorem not_stray_opening : ¬Raises Stray (opening w kind) :=
  Raises.not_bind not_stray_write (fun _ _ => not_stray_check)

theorem opening_ok_iff : opening w kind = .ok () ↔
    w.policy.checkWrite (opType kind) "SIMULATE" = .ok () ∧ w.configured = true := by
  unfold opening
  rw [Checks.bind_ok]
  constructor
  · rintro ⟨_, hwrite, h⟩
    refine ⟨hwrite, ?_⟩
    by_contra hc
    rw [check, if_neg hc] at h
    cases h
  · rintro ⟨hwrite, hconfigured⟩
    refine ⟨(), hwrite, ?_⟩
    rw [check, if_pos hconfigured]

theorem not_stray_front : ¬Raises Stray (front w kind fields p) :=
  Raises.not_bind not_stray_write (fun _ _ => Raises.not_bind not_stray_tokens (fun _ _ => not_stray_schema))

theorem compared_raises {P : Exc → Prop} {proposed : String} (hP : ∀ message, ¬P ⟨.executionConflict, message, false⟩)
    (h : canonicalizeRequest env account op fields = .ok proposed) : ¬Raises P (storedResult row proposed) := by
  obtain ⟨f, l, -, -, -, hl⟩ := canonicalizeRequest_loads h
  exact storedResult_raises hP hl

/-- Within a scope only a refused access strays. -/
theorem retry_stray : Raises Stray (retry w kind fields accId row) ↔
    (∃ a, exactAccountId accId = .ok a) ∧ w.may row.account = false := by
  unfold retry
  rw [Raises.bind_of_not (not_stray_of_value value_account)]
  constructor
  · rintro ⟨a, ha, hr⟩
    rcases Raises.bind.mp hr with hr | ⟨_, -, hr⟩
    · exact ⟨⟨a, ha⟩, stray_access_iff.mp hr⟩
    · obtain ⟨proposed, hp, hr⟩ := (Raises.bind.mp hr).resolve_left (not_stray_of_value value_request)
      exact absurd hr (compared_raises (by simp [Stray]) hp)
  · rintro ⟨⟨a, ha⟩, hmay⟩
    exact ⟨a, ha, Raises.bind.mpr (.inl (stray_access_iff.mpr hmay))⟩

/-- Outside of a scope malformed values stray too. -/
theorem retry_untyped : Raises (fun e => ¬Typed e) (retry w kind fields accId row) ↔
    (∀ a, exactAccountId accId ≠ .ok a) ∨ w.may row.account = false ∨ ¬Writable fields := by
  unfold retry
  rw [Raises.bind, untyped_of_value value_account]
  constructor
  · rintro (hbad | ⟨a, ha, hr⟩)
    · exact .inl hbad
    · right
      rcases Raises.bind.mp hr with hr | ⟨_, -, hr⟩
      · exact .inl (untyped_access_iff.mp hr)
      · right
        intro hwritable
        rcases Raises.bind.mp hr with hr | ⟨proposed, hp, hr⟩
        · obtain ⟨s, hs⟩ := written_iff.mpr hwritable
          exact (untyped_of_value value_request).mp hr s hs
        · exact compared_raises (by simp [Typed]) hp hr
  · intro h
    by_cases hok : ∃ a, exactAccountId accId = .ok a
    · obtain ⟨a, ha⟩ := hok
      refine .inr ⟨a, ha, ?_⟩
      by_cases hmay : w.may row.account = true
      · refine Raises.bind.mpr (.inr ⟨(), access_ok_iff.mpr hmay, Raises.bind.mpr (.inl ?_)⟩)
        rw [untyped_of_value value_request]
        intro s hs
        rcases h with hbad | hno | hunwritable
        · exact hbad a ha
        · cases hmay.symm.trans hno
        · exact hunwritable (written_iff.mp ⟨s, hs⟩)
      · have hno : w.may row.account = false := by simpa using hmay
        exact Raises.bind.mpr (.inl (untyped_access_iff.mpr hno))
    · exact .inl (fun a ha => hok ⟨a, ha⟩)

/-- The enumeration of the accounts does not stray. -/
theorem not_stray_rows {pick : List AccountRow → Except Exc Account} (hpick : ∀ rows, ¬Raises Stray (pick rows)) :
    ¬Raises Stray (getAccounts w.accounts.lift none >>= pick) := by
  refine Raises.not_bind ?_ (fun rows _ => hpick rows)
  rw [getAccounts, Raises.map]
  exact not_stray_lift

/-- The account of a new operation: it strays where the client names one it may not trade. -/
theorem account_stray : Raises Stray (paperAccount w.policy w.accounts.lift w.grants accId) ↔
    ∃ a, exactAccountId accId = .ok a ∧ a ≠ 0 ∧ a ∈ w.policy.simulateAllowlist ∧ w.may a = false := by
  unfold paperAccount
  rw [Raises.bind_of_not (not_stray_of_value value_account)]
  refine exists_congr (fun a => and_congr_right (fun _ => ?_))
  by_cases h0 : a = 0
  · refine iff_of_false ?_ (fun h => h.1 h0)
    rw [if_neg (not_not.mpr h0)]
    refine not_stray_rows (fun rows => Raises.not_ite (Raises.not_ite (Raises.of_pure _) (by simp)) ?_)
    split
    · exact Raises.of_pure _
    · simp
  · rw [if_pos h0]
    by_cases hl : a ∈ w.policy.simulateAllowlist
    · rw [if_neg (by simpa using hl)]
      refine Raises.bind.trans ?_
      rw [stray_access_iff]
      constructor
      · rintro (hmay | ⟨_, -, hr⟩)
        · exact ⟨h0, hl, hmay⟩
        · refine absurd hr ?_
          refine not_stray_rows (fun rows => Raises.not_ite (Raises.not_ite (Raises.of_pure _) (by simp)) ?_)
          split
          · exact Raises.of_pure _
          · simp
      · rintro ⟨-, -, hmay⟩
        exact .inl hmay
    · rw [if_pos (by simpa using hl)]
      refine iff_of_false ?_ (fun h => hl h.2.1)
      exact Raises.not_bind (by simp) (fun _ h => by cases h)

theorem not_stray_target : ¬Raises Stray (targetOrder w kind fields) := by
  refine Raises.not_ite (Raises.of_ok _) (Raises.not_bind not_stray_lift (fun order _ => ?_))
  refine Raises.not_bind not_stray_check (fun _ _ => Raises.not_ite ?_ (Raises.of_pure _))
  exact Raises.not_bind not_stray_check (fun _ _ => Raises.not_bind not_stray_lift (fun _ _ => Raises.of_pure _))

theorem not_stray_verified {code : String} : ¬Raises Stray (verifiedInstrument w code) := by
  unfold verifiedInstrument
  cases w.instruments with
  | none => simp
  | some find =>
      refine Raises.not_bind not_stray_lift (fun found _ => ?_)
      split
      · exact Raises.not_bind not_stray_check (fun _ _ => Raises.of_pure _)
      · simp

theorem not_stray_review : ¬Raises Stray (review w kind fields) := by
  refine Raises.not_bind not_stray_check (fun _ _ => Raises.not_bind not_stray_target (fun order _ => ?_))
  refine Raises.not_bind not_stray_check (fun _ _ => Raises.not_ite (Raises.of_pure _) ?_)
  exact Raises.not_bind not_stray_verified (fun _ _ => Raises.of_pure _)

/-- The only stray of the quantity is the overflow of its conversion. -/
theorem quantity_stray {qty : Value} : Raises Stray (checkQuantity qty) ↔ tooLarge qty = true := by
  unfold checkQuantity
  by_cases hl : tooLarge qty = true
  · rw [if_pos hl, Raises.of_error]
    exact iff_of_true (.inr (.inr rfl)) hl
  · rw [if_neg hl]
    refine iff_of_false ?_ hl
    split
    · exact Raises.not_bind not_stray_check (fun _ _ => Raises.of_pure _)
    · simp

theorem terms_stray : Raises Stray (checkTerms w kind fields order instrument) ↔
    tooLarge (quantity fields order) = true := by
  unfold checkTerms
  rw [Raises.bind, quantity_stray]
  refine or_iff_left ?_
  rintro ⟨qty, -, hr⟩
  revert hr
  refine Raises.not_bind (not_stray_of_value value_price) (fun _ _ => Raises.not_bind not_stray_instrument (fun _ _ => ?_))
  refine Raises.not_bind not_stray_check (fun _ _ => Raises.not_bind not_stray_lift (fun _ _ => Raises.of_pure _))

theorem prepare_stray : Raises Stray (prepare w kind fields) ↔
    ∃ order instrument, review w kind fields = .ok (some (order, instrument)) ∧
      tooLarge (quantity fields order) = true := by
  unfold prepare
  rw [Raises.bind_of_not not_stray_review]
  constructor
  · rintro ⟨found, hfound, hr⟩
    cases found with
    | none => exact absurd hr (Raises.of_pure _)
    | some terms =>
        rcases Raises.bind.mp hr with hr | ⟨_, -, hr⟩
        · exact ⟨terms.1, terms.2, hfound, terms_stray.mp hr⟩
        · exact absurd hr (Raises.of_pure _)
  · rintro ⟨order, instrument, hfound, hl⟩
    exact ⟨_, hfound, Raises.bind.mpr (.inl (terms_stray.mpr hl))⟩

theorem checks_stray : Raises Stray (dispatchChecks w kind fields) ↔
    w.readyAgain = .ok () ∧ ∃ order instrument, review w kind fields = .ok (some (order, instrument)) ∧
      tooLarge (quantity fields order) = true := by
  unfold dispatchChecks
  rw [Raises.bind_of_not not_stray_lift]
  have hrest : ¬Raises Stray (do
      w.protect.lift
      if kind ≠ .cancel then w.newRisk.lift
      w.dispatchControls.lift
      w.confirmControls.lift
      w.markDispatch.lift) := by
    have hmark : ¬Raises Stray (do
        w.dispatchControls.lift
        w.confirmControls.lift
        w.markDispatch.lift) :=
      Raises.not_bind not_stray_lift (fun _ _ => Raises.not_bind not_stray_lift (fun _ _ => not_stray_lift))
    refine Raises.not_bind not_stray_lift (fun _ _ => Raises.not_ite ?_ hmark)
    exact Raises.not_bind not_stray_lift (fun _ _ => hmark)
  constructor
  · rintro ⟨_, hready, hr⟩
    refine ⟨lift_ok_iff.mp hready, prepare_stray.mp ?_⟩
    rcases Raises.bind.mp hr with hr | ⟨_, -, hr⟩
    · exact hr
    · exact absurd hr hrest
  · rintro ⟨hready, hterms⟩
    exact ⟨(), lift_ok_iff.mpr hready, Raises.bind.mpr (.inl (prepare_stray.mpr hterms))⟩

/-- The account that a client names and may not trade. -/
def AccountRefused (w : World) (accId : String) : Prop :=
  ∃ a, exactAccountId accId = .ok a ∧ a ≠ 0 ∧ a ∈ w.policy.simulateAllowlist ∧ w.may a = false

/-- The row of an account that the client may not trade. -/
def RowRefused (w : World) (accId : String) (row : StoredRow) : Prop :=
  (∃ a, exactAccountId accId = .ok a) ∧ w.may row.account = false

/-- What has passed before an operation is inserted into the journal. -/
structure Reserved (w : World) (kind : Kind) (fields : Fields) (p : Parameters) : Prop where
  current : p.admissionEpoch = some w.epoch
  ready : w.ready = .ok ()
  account : ∃ account, paperAccount w.policy w.accounts.lift w.grants p.accId = .ok account
  written : Writable fields
  quota : w.reserve = .ok ()

/-- What the tail of an admission does once the quota is reserved. -/
theorem insert_stray : Raises Stray (do
    match ← w.insert.lift with
    | some row => return some (← retry w kind fields accId row)
    | none => return (none : Option Passed)) ↔ ∃ row, w.insert = .ok (some row) ∧ RowRefused w accId row := by
  rw [Raises.bind_of_not not_stray_lift]
  constructor
  · rintro ⟨found, hfound, hr⟩
    cases found with
    | none => exact absurd hr (Raises.of_pure _)
    | some row =>
        rcases Raises.bind.mp hr with hr | ⟨_, -, hr⟩
        · exact ⟨row, lift_ok_iff.mp hfound, retry_stray.mp hr⟩
        · exact absurd hr (Raises.of_pure _)
  · rintro ⟨row, hrow, href⟩
    exact ⟨some row, lift_ok_iff.mpr hrow, Raises.bind.mpr (.inl (retry_stray.mpr href))⟩

theorem new_stray : Raises Stray (admitNew w kind fields p) ↔
    (p.admissionEpoch = some w.epoch ∧ w.ready = .ok () ∧ AccountRefused w p.accId) ∨
      (Reserved w kind fields p ∧ ∃ row, w.insert = .ok (some row) ∧ RowRefused w p.accId row) := by
  unfold admitNew
  by_cases hepoch : p.admissionEpoch = some w.epoch
  · rw [if_neg (not_not.mpr hepoch), Raises.bind_of_not not_stray_lift]
    constructor
    · rintro ⟨_, hready, hr⟩
      rcases Raises.bind.mp hr with hr | ⟨account, haccount, hr⟩
      · exact .inl ⟨hepoch, lift_ok_iff.mp hready, account_stray.mp hr⟩
      · obtain ⟨s, hs, hr⟩ := (Raises.bind.mp hr).resolve_left (not_stray_of_value value_request)
        obtain ⟨_, hquota, hr⟩ := (Raises.bind.mp hr).resolve_left not_stray_lift
        exact .inr ⟨⟨hepoch, lift_ok_iff.mp hready, ⟨account, haccount⟩, written_iff.mp ⟨s, hs⟩,
          lift_ok_iff.mp hquota⟩, insert_stray.mp hr⟩
    · rintro (⟨-, hready, hrefused⟩ | ⟨hreserved, hrow⟩)
      · exact ⟨(), lift_ok_iff.mpr hready, Raises.bind.mpr (.inl (account_stray.mpr hrefused))⟩
      · obtain ⟨account, haccount⟩ := hreserved.account
        obtain ⟨s, hs⟩ := written_iff.mpr hreserved.written
        refine ⟨(), lift_ok_iff.mpr hreserved.ready, Raises.bind.mpr (.inr ⟨account, haccount, ?_⟩)⟩
        refine Raises.bind.mpr (.inr ⟨s, hs, Raises.bind.mpr (.inr ⟨(), lift_ok_iff.mpr hreserved.quota, ?_⟩)⟩)
        exact insert_stray.mpr hrow
  · rw [if_pos hepoch]
    refine iff_of_false (Raises.not_bind (by simp [Stray]) (fun _ h => nomatch h)) ?_
    rintro (⟨h, -⟩ | ⟨h, -⟩)
    · exact hepoch h
    · exact hepoch h.current

theorem new_ok_none_iff : admitNew w kind fields p = .ok none ↔ Reserved w kind fields p ∧ w.insert = .ok none := by
  unfold admitNew
  constructor
  · intro h
    by_cases hepoch : p.admissionEpoch = some w.epoch
    · rw [if_neg (not_not.mpr hepoch)] at h
      obtain ⟨_, hready, h⟩ := Checks.bind_ok.mp h
      obtain ⟨account, haccount, h⟩ := Checks.bind_ok.mp h
      obtain ⟨s, hs, h⟩ := Checks.bind_ok.mp h
      obtain ⟨_, hquota, h⟩ := Checks.bind_ok.mp h
      obtain ⟨found, hfound, h⟩ := Checks.bind_ok.mp h
      refine ⟨⟨hepoch, lift_ok_iff.mp hready, ⟨account, haccount⟩, written_iff.mp ⟨s, hs⟩, lift_ok_iff.mp hquota⟩, ?_⟩
      cases found with
      | none => exact lift_ok_iff.mp hfound
      | some row =>
          obtain ⟨_, -, h⟩ := Checks.bind_ok.mp h
          cases h
    · rw [if_pos hepoch] at h
      cases h
  · rintro ⟨hreserved, hinsert⟩
    obtain ⟨account, haccount⟩ := hreserved.account
    obtain ⟨s, hs⟩ : ∃ s, canonicalizeRequest "SIMULATE" account (opType kind) fields = .ok s :=
      written_iff.mpr hreserved.written
    rw [if_neg (not_not.mpr hreserved.current), hreserved.ready, haccount, hreserved.quota, hinsert]
    change (canonicalizeRequest "SIMULATE" account (opType kind) fields >>= fun _ => Except.ok none) = _
    rw [hs]
    rfl

theorem admission_stray : Raises Stray (admission w kind fields p) ↔
    (∃ row, w.lookupAgain = .ok (some row) ∧ RowRefused w p.accId row) ∨
      (w.lookupAgain = .ok none ∧ Raises Stray (admitNew w kind fields p)) := by
  unfold admission
  rw [Raises.bind_of_not not_stray_stored]
  constructor
  · rintro ⟨found, hfound, hr⟩
    cases found with
    | none => exact .inr ⟨stored_ok_iff.mp hfound, hr⟩
    | some row =>
        rcases Raises.bind.mp hr with hr | ⟨_, -, hr⟩
        · exact .inl ⟨row, stored_ok_iff.mp hfound, retry_stray.mp hr⟩
        · exact absurd hr (Raises.of_pure _)
  · rintro (⟨row, hrow, href⟩ | ⟨hnone, hr⟩)
    · exact ⟨some row, stored_ok_iff.mpr hrow, Raises.bind.mpr (.inl (retry_stray.mpr href))⟩
    · exact ⟨none, stored_ok_iff.mpr hnone, hr⟩

theorem admission_ok_none_iff : admission w kind fields p = .ok none ↔
    w.lookupAgain = .ok none ∧ admitNew w kind fields p = .ok none := by
  unfold admission
  rw [Checks.bind_ok]
  constructor
  · rintro ⟨found, hfound, h⟩
    cases found with
    | none => exact ⟨stored_ok_iff.mp hfound, h⟩
    | some row =>
        obtain ⟨_, -, h⟩ := Checks.bind_ok.mp h
        cases h
  · rintro ⟨hnone, h⟩
    exact ⟨none, stored_ok_iff.mpr hnone, h⟩

theorem dispatch_classified_iff : (dispatch w kind fields).Classified ↔
    ¬(Raises Stray (dispatchChecks w kind fields) ∧ w.storeRefusal = .ok ()) := by
  unfold dispatch
  cases dispatchChecks w kind fields with
  | ok _ => exact iff_of_true classified_ok (fun h => Raises.of_ok _ h.1)
  | error e =>
      rw [Raises.of_error]
      cases hr : w.storeRefusal with
      | ok _ => exact classified_refused.trans (by simp)
      | error failure =>
          refine iff_of_true (classified_unrefused ?_) (fun h => nomatch h.2)
          have hs := @not_stray_lift Unit (.error failure)
          exact fun h => hs ⟨_, rfl, h⟩

/-- The lookups before the admission lock found nothing. -/
def Unseen (w : World) : Prop := w.late = none ∧ w.lookup = .ok none

/-- The failures before the write that reach the caller under another class. -/
inductive Escapes (w : World) (kind : Kind) (fields : Fields) (p : Parameters) : Prop
  /-- A known operation is compared outside of the scopes. -/
  | stored (row : StoredRow) (found : w.late = some row ∨ (w.late = none ∧ w.lookup = .ok (some row)))
      (raised : (∀ a, exactAccountId p.accId ≠ .ok a) ∨ w.may row.account = false ∨ ¬Writable fields)
  | storedMeanwhile (row : StoredRow) (unseen : Unseen w) (found : w.lookupAgain = .ok (some row))
      (refused : RowRefused w p.accId row)
  | account (unseen : Unseen w) (absent : w.lookupAgain = .ok none) (current : p.admissionEpoch = some w.epoch)
      (ready : w.ready = .ok ()) (refused : AccountRefused w p.accId)
  | insertedMeanwhile (row : StoredRow) (unseen : Unseen w) (absent : w.lookupAgain = .ok none)
      (reserved : Reserved w kind fields p) (found : w.insert = .ok (some row)) (refused : RowRefused w p.accId row)
  /-- The row is created, refused and stored so, and the overflow is raised. -/
  | quantity (order : Fields) (instrument : InstrumentFacts) (unseen : Unseen w) (absent : w.lookupAgain = .ok none)
      (reserved : Reserved w kind fields p) (inserted : w.insert = .ok none) (ready : w.readyAgain = .ok ())
      (reviewed : review w kind fields = .ok (some (order, instrument)))
      (large : tooLarge (quantity fields order) = true) (recorded : w.storeRefusal = .ok ())

theorem unknown_classified_iff (hu : Unseen w) :
    (unknownOperation w kind fields p).Classified ↔ ¬Escapes w kind fields p := by
  have hadmission : Raises Stray (admission w kind fields p) → Escapes w kind fields p := by
    intro hr
    rcases admission_stray.mp hr with ⟨row, hrow, href⟩ | ⟨hnone, hr⟩
    · exact .storedMeanwhile row hu hrow href
    · rcases new_stray.mp hr with ⟨hcurrent, hready, href⟩ | ⟨hreserved, row, hrow, href⟩
      · exact .account hu hnone hcurrent hready href
      · exact .insertedMeanwhile row hu hnone hreserved hrow href
  -- The other way round a known operation is no longer possible.
  have hcases : Escapes w kind fields p → Raises Stray (admission w kind fields p) ∨
      (admission w kind fields p = .ok none ∧ Raises Stray (dispatchChecks w kind fields) ∧ w.storeRefusal = .ok ()) := by
    intro h
    cases h with
    | stored row found _ =>
        rcases found with h | ⟨-, h⟩
        · cases hu.1.symm.trans h
        · cases hu.2.symm.trans h
    | storedMeanwhile row _ found refused => exact .inl (admission_stray.mpr (.inl ⟨row, found, refused⟩))
    | account _ absent current ready refused =>
        exact .inl (admission_stray.mpr (.inr ⟨absent, new_stray.mpr (.inl ⟨current, ready, refused⟩)⟩))
    | insertedMeanwhile row _ absent reserved found refused =>
        exact .inl (admission_stray.mpr (.inr ⟨absent, new_stray.mpr (.inr ⟨reserved, row, found, refused⟩)⟩))
    | quantity order instrument _ absent reserved inserted ready reviewed large recorded =>
        exact .inr ⟨admission_ok_none_iff.mpr ⟨absent, new_ok_none_iff.mpr ⟨reserved, inserted⟩⟩,
          checks_stray.mpr ⟨ready, order, instrument, reviewed, large⟩, recorded⟩
  unfold unknownOperation
  cases ha : admission w kind fields p with
  | error e =>
      refine classified_scope.trans (not_congr ?_)
      constructor
      · exact fun hs => hadmission ⟨e, ha, hs⟩
      · intro h
        rcases hcases h with ⟨e', he', hs⟩ | ⟨hn, -⟩
        · cases ha.symm.trans he'
          exact hs
        · cases ha.symm.trans hn
  | ok found =>
      cases found with
      | some passed =>
          refine iff_of_true classified_ok (fun h => ?_)
          rcases hcases h with ⟨e', he', -⟩ | ⟨hn, -⟩
          · cases ha.symm.trans he'
          · cases ha.symm.trans hn
      | none =>
          refine dispatch_classified_iff.trans (not_congr ?_)
          constructor
          · rintro ⟨hs, hrecorded⟩
            obtain ⟨hready, order, instrument, hreviewed, hlarge⟩ := checks_stray.mp hs
            obtain ⟨habsent, hnew⟩ := admission_ok_none_iff.mp ha
            obtain ⟨hreserved, hinserted⟩ := new_ok_none_iff.mp hnew
            exact .quantity order instrument hu habsent hreserved hinserted hready hreviewed hlarge hrecorded
          · intro h
            rcases hcases h with ⟨e', he', -⟩ | ⟨-, h⟩
            · cases ha.symm.trans he'
            · exact h

/-- A known operation is told of, unless its comparison fails. -/
theorem stored_classified_iff (found : w.late = some row ∨ (w.late = none ∧ w.lookup = .ok (some row))) :
    (⟨retry w kind fields p.accId row, false, false⟩ : Outcome).Classified ↔ ¬Escapes w kind fields p := by
  rw [classified_plain, retry_untyped]
  refine not_congr ⟨fun h => .stored row found h, fun h => ?_⟩
  have hseen : ¬Unseen w := by
    rintro ⟨hlate, hlookup⟩
    rcases found with h | ⟨-, h⟩
    · cases hlate.symm.trans h
    · cases hlookup.symm.trans h
  cases h with
  | stored row' found' raised =>
      have : row' = row := by
        rcases found with h | ⟨hn, h⟩ <;> rcases found' with h' | ⟨hn', h'⟩
        · exact Option.some.inj (h'.symm.trans h)
        · cases h.symm.trans hn'
        · cases hn.symm.trans h'
        · cases h.symm.trans h'
          rfl
      subst this
      exact raised
  | storedMeanwhile _ unseen _ _ => exact absurd unseen hseen
  | account unseen _ _ _ _ => exact absurd unseen hseen
  | insertedMeanwhile _ unseen _ _ _ _ => exact absurd unseen hseen
  | quantity _ _ unseen _ _ _ _ _ _ _ => exact absurd unseen hseen

theorem execute_classified_iff : (execute w kind fields p).Classified ↔
    ¬(front w kind fields p = .ok () ∧ Escapes w kind fields p) := by
  unfold execute
  cases hfront : front w kind fields p with
  | error e =>
      refine iff_of_true (classified_scope.mpr (fun hs => not_stray_front ⟨e, hfront, hs⟩)) ?_
      exact fun h => nomatch h.1
  | ok _ =>
      simp only [true_and]
      cases hlate : w.late with
      | some row => exact stored_classified_iff (.inl hlate)
      | none =>
          cases hlookup : w.lookup with
          | error message =>
              refine iff_of_true (classified_plain.mpr ?_) (fun h => ?_)
              · exact @typed_stored Passed (.error message)
              · cases h with
                | stored row found _ =>
                    rcases found with h | ⟨-, h⟩
                    · cases hlate.symm.trans h
                    · cases hlookup.symm.trans h
                | storedMeanwhile _ unseen _ _ => cases hlookup.symm.trans unseen.2
                | account unseen _ _ _ _ => cases hlookup.symm.trans unseen.2
                | insertedMeanwhile _ unseen _ _ _ _ => cases hlookup.symm.trans unseen.2
                | quantity _ _ unseen _ _ _ _ _ _ _ => cases hlookup.symm.trans unseen.2
          | ok found =>
              cases found with
              | some row => exact stored_classified_iff (.inr ⟨hlate, hlookup⟩)
              | none => exact unknown_classified_iff ⟨hlate, hlookup⟩

theorem paper_classified_iff : (paperExecute w kind fields p).Classified ↔
    ¬(w.configured = true ∧ front w kind fields p = .ok () ∧ Escapes w kind fields p) := by
  unfold paperExecute
  cases hopening : opening w kind with
  | error e =>
      refine iff_of_true (classified_scope.mpr (fun hs => not_stray_opening ⟨e, hopening, hs⟩)) ?_
      rintro ⟨hconfigured, hchecked, -⟩
      obtain ⟨_, hwrite, -⟩ := Checks.bind_ok.mp hchecked
      cases hopening.symm.trans (opening_ok_iff.mpr ⟨hwrite, hconfigured⟩)
  | ok _ =>
      refine execute_classified_iff.trans (not_congr ?_)
      rw [and_iff_right (opening_ok_iff.mp hopening).2]

/-- What a public method has passed when its operation is looked up. -/
structure Entered (w : World) (method : String) (p : Parameters) (kind : Kind) (fields : Fields) : Prop where
  given : PaperRequests.paperRequest w.policy method p = .ok (kind, fields)
  configured : w.configured = true
  checked : front w kind fields p = .ok ()

theorem call_classified_iff : (call w method p).Classified ↔
    ¬∃ kind fields, Entered w method p kind fields ∧ Escapes w kind fields p := by
  unfold call
  cases hgiven : PaperRequests.paperRequest w.policy method p with
  | error e =>
      refine iff_of_true (classified_scope.mpr (fun hs => not_stray_given ⟨e, hgiven, hs⟩)) ?_
      rintro ⟨kind, fields, hentered, -⟩
      cases hgiven.symm.trans hentered.given
  | ok request =>
      obtain ⟨kind, fields⟩ := request
      refine paper_classified_iff.trans (not_congr ?_)
      constructor
      · rintro ⟨hconfigured, hchecked, hescapes⟩
        exact ⟨kind, fields, ⟨hgiven, hconfigured, hchecked⟩, hescapes⟩
      · rintro ⟨kind', fields', hentered, hescapes⟩
        cases hgiven.symm.trans hentered.given
        exact ⟨hentered.configured, hentered.checked, hescapes⟩

end MoomooMcp.PaperBoundary
