import MoomooMcp.PreDispatch
import MoomooMcp.RealIdentity

namespace MoomooMcp.RealBoundary

open Intent OrderErrors OrderRules OrderContract Accounts ClientAuthorization PreDispatch RealIdentity

/-- What a REAL mutation finds: its configuration, the journal under the lookups of
its operation, and the answers of the other components. -/
structure World where
  policy : AccountPolicy
  grants : Grants
  configured : Bool
  /-- The identity of an operation whose outcome was observed but not stored. -/
  late : Option StoredRow
  lookup : Except String (Option StoredRow)
  lateAgain : Option StoredRow
  lookupAgain : Except String (Option StoredRow)
  epoch : String
  ready : Answer Unit
  connected : Bool
  halt : Answer Unit
  accounts : Answer (List AccountRow)
  /-- The row that was there already, if the operation was admitted in between. -/
  insert : Answer (Option StoredRow)
  /-- How an admitted operation gets to its write. Any exception can end it. -/
  attempt : Except Exc Unit
  refusalStored : Bool

def World.may (w : World) (account : Account) : Bool := accountAccessAllowed w.grants "REAL" (toString account) true

def requestedOp (p : Parameters) : String := Text.normalize (p.modifyOrderOp.getD "")

/-- `_kind`. -/
def kindOf (method : String) (p : Parameters) : Except Exc String :=
  if method = "place_order" then .ok "PLACE"
  else if method = "place_combo_order" then .ok "PLACE_COMBO"
  else if method = "cancel_order" ∨ (method = "modify_order" ∧ requestedOp p = "CANCEL") then .ok "CANCEL"
  else if method = "modify_order" then .ok "MODIFY"
  else .error (valueError "Unsupported REAL mutation method")

/-- `_original`: the parameters without those that only route the request. -/
def original (p : Parameters) : Fields :=
  p.others ++ p.modifyOrderOp.toList.map (fun op => ("modify_order_op", .text op)) ++
    p.session.toList.map (fun session => ("session", .text session))

/-- What is checked before the journal is asked. -/
def front (w : World) (method : String) (p : Parameters) : Except Exc String := do
  w.policy.checkWrite method "REAL"
  validateToken p
  let kind ← kindOf method p
  let _ ← canonicalRealRequest 1 kind (original p)
  return kind

/-- `_retry`. -/
def retryRow (w : World) (kind : String) (p : Parameters) (row : StoredRow) : Except Exc Passed := do
  checkAccountAccess w.grants "REAL" (toString row.account) true
  let requested ← exactAccountId p.accId
  let proposed ← canonicalRealRequest (if requested = 0 then row.account else requested) kind (original p)
  storedResult row proposed

def isText : Value → Bool
  | .text _ => true
  | _ => false

def placeValues (p : Parameters) : SingleOrder where
  orderType := Value.get p.others "order_type"
  qty := Value.get p.others "qty"
  price := Value.get p.others "price"
  auxPrice := Value.get p.others "aux_price"
  trailType := Value.get p.others "trail_type"
  trailValue := Value.get p.others "trail_value"
  trailSpread := Value.get p.others "trail_spread"

def comboValues (p : Parameters) : OrderValues :=
  { orderType := Value.get p.others "order_type", qty := Value.get p.others "qty", comboPrice := Value.get p.others "price" }

def exposingOps : List String := ["NORMAL", "ENABLE"]

/-- The type of the target is not known until its read. -/
def patchValues (p : Parameters) : OrderValues :=
  { orderType := .text ""
    qty := if requestedOp p ∈ exposingOps then Value.get p.others "qty" else .null
    price := Value.get p.others "price" }

def modifyOps : List String := ["NORMAL", "CANCEL", "DISABLE", "ENABLE", "DELETE"]

/-- Validate local REAL mutation fields before broker reads or admission. -/
def validateRealRequest (method : String) (p : Parameters) : Except Exc Unit :=
  if method = "place_order" then do
    check (!isText (Value.get p.others "price")) "REAL price must be numeric"
    validateSingleOrderRequest method (placeValues p)
  else if method = "place_combo_order" then validateOrderValues method (comboValues p)
  else do
    check (PaperRequests.positiveOrderId (Value.get p.others "order_id"))
      "REAL mutation must name one positive decimal order ID"
    if method = "modify_order" then do
      check (modifyOps.contains (requestedOp p)) "Unsupported REAL modification operation"
      validateOrderValues method (patchValues p)
    else .ok ()

def exposing (kind : String) (p : Parameters) : Bool :=
  kind = "PLACE" || kind = "PLACE_COMBO" || (kind = "MODIFY" && exposingOps.contains (requestedOp p))

/-- The market of the instrument that a placement names. -/
def marketOf (kind : String) (p : Parameters) : Except Exc (Option String) :=
  if kind = "PLACE" then .ok (getMarketFromCode (Value.get p.others "code").str)
  else if kind = "PLACE_COMBO" then (buildComboLegs (Value.get p.others "combo_legs")).map legsMarket
  else .ok none

/-- `preflight`, after its retry and before the account. -/
def preflight (w : World) (method kind : String) (p : Parameters) : Except Exc (Option String) := do
  validateRealRequest method p
  if p.admissionEpoch ≠ some w.epoch then
    .error ⟨.executionConflict, "Unknown non-current-epoch token cannot be accounted for; do not refresh it", false⟩
  w.ready.lift
  if !w.connected then .error ⟨.runtime, "Trade context not connected", false⟩
  if exposing kind p then w.halt.lift
  marketOf kind p

def account (w : World) (p : Parameters) (market : Option String) : Except Exc Account := do
  resolveExact w.policy w.accounts.lift w.grants "REAL" market (← exactAccountId p.accId) true

/-- What leaves `execute` when an operation that it admitted is refused. -/
def refusal (method : String) (e : Exc) : Exc :=
  if e.type = .orderNotSent then { e with admitted := true }
  else ⟨.orderNotSent, notSentMessage method e.message, true⟩

/-- The admitted operation, up to its write. -/
def dispatch (w : World) (method : String) : Outcome :=
  match w.attempt with
  | .ok () => ⟨.ok .writeStarts, true, false⟩
  | .error e => ⟨.error (refusal method e), true, w.refusalStored⟩

/-- The insertion into the journal, outside of whose scope a row that was there already is compared. -/
def insertRow (w : World) (method kind : String) (p : Parameters) (account : Account) : Outcome :=
  let inserted : Except Exc (Option StoredRow) := do
    let _ ← canonicalRealRequest account kind (original p)
    w.insert.lift
  match inScope method false false inserted with
  | .error e => ⟨.error e, false, false⟩
  | .ok (some row) => ⟨retryRow w kind p row, false, false⟩
  | .ok none => dispatch w method

def newOperation (w : World) (method kind : String) (p : Parameters) : Outcome :=
  match inScope method false false (preflight w method kind p >>= account w p) with
  | .error e => ⟨.error e, false, false⟩
  | .ok account => insertRow w method kind p account

/-- The row of the operation: the one that was not stored, or that of the journal. -/
def rowOf (late : Option StoredRow) (lookup : Except String (Option StoredRow)) : Except Exc (Option StoredRow) :=
  match late with
  | some row => .ok (some row)
  | none => stored lookup

/-- What is done about an operation that was looked up. -/
def resume (w : World) (kind : String) (p : Parameters) (found : Except Exc (Option StoredRow)) (next : Outcome) :
    Outcome :=
  match found with
  | .error e => ⟨.error e, false, false⟩
  | .ok (some row) => ⟨retryRow w kind p row, false, false⟩
  | .ok none => next

/-- `execute`, up to its write. Under the admission lock the operation is looked up
once more, where the first checks pass again. -/
def execute (w : World) (method : String) (p : Parameters) : Outcome :=
  match inScope method false false (front w method p) with
  | .error e => ⟨.error e, false, false⟩
  | .ok kind =>
      resume w kind p (rowOf w.late w.lookup)
        (resume w kind p (rowOf w.lateAgain w.lookupAgain) (newOperation w method kind p))

def opening (w : World) (method : String) : Except Exc Unit := do
  w.policy.checkWrite method "REAL"
  check w.configured "Persistent REAL journal is not configured; no unjournaled REAL writes are permitted"

/-- The public methods for the real environment. -/
def call (w : World) (method : String) (p : Parameters) : Outcome :=
  match inScope method false false (opening w method) with
  | .error e => ⟨.error e, false, false⟩
  | .ok () => execute w method p

variable {w : World} {method kind : String} {p : Parameters} {row : StoredRow} {market : Option String} {q : Fields}
  {a : Account}

theorem value_session {session : Value} : ¬Raises NotValue (selectedSession session) := by
  cases session with
  | text s =>
      rw [selectedSession, normalizeOrderSession]
      split_ifs <;> simp [sessionError]
  | null | bool _ | number _ | list _ | object _ => simp [selectedSession, sessionError]

theorem value_withSession : ¬Raises NotValue (withSession kind q) := by
  unfold withSession
  split
  · exact Raises.of_ok _
  · refine Raises.not_ite (Raises.not_bind value_session (fun _ _ => ?_)) (Raises.of_ok _)
    exact Raises.not_ite (Raises.of_pure _) (Raises.of_pure _)

theorem value_identityNumber {n : Numeral} : ¬Raises NotValue (identityNumber n) := by
  cases n with
  | nonFinite => simp [identityNumber]
  | finite d => exact Raises.not_ite (by simp) (Raises.of_ok _)

mutual

theorem value_identity : ∀ v : Value, ¬Raises NotValue (identityValue v)
  | .null | .bool _ | .text _ => by simp [identityValue]
  | .number n => by
      rw [identityValue]
      exact Raises.not_bind value_identityNumber (fun _ _ => Raises.of_pure _)
  | .list vs => by
      rw [identityValue]
      exact Raises.not_bind (value_identities vs) (fun _ _ => Raises.of_pure _)
  | .object fields => by
      rw [identityValue]
      exact Raises.not_bind (value_identityFields fields) (fun _ _ => Raises.of_pure _)

theorem value_identities : ∀ vs : List Value, ¬Raises NotValue (identityValues vs)
  | [] => Raises.of_ok _
  | v :: vs => by
      rw [identityValues]
      refine Raises.not_bind (value_identity v) (fun _ _ => ?_)
      exact Raises.not_bind (value_identities vs) (fun _ _ => Raises.of_pure _)

theorem value_identityFields : ∀ fields : Fields, ¬Raises NotValue (identityFields fields)
  | [] => Raises.of_ok _
  | (k, v) :: fields => by
      rw [identityFields]
      refine Raises.not_bind (value_identity v) (fun _ _ => ?_)
      exact Raises.not_bind (value_identityFields fields) (fun _ _ => Raises.of_pure _)

end

theorem value_realRequest : ¬Raises NotValue (canonicalRealRequest a kind q) :=
  Raises.not_bind value_withSession (fun _ _ => Raises.not_bind (value_identity _) (fun _ _ => value_dumps))

theorem not_stray_kind : ¬Raises Stray (kindOf method p) := by
  unfold kindOf
  split_ifs <;> simp

theorem not_stray_front : ¬Raises Stray (front w method p) := by
  refine Raises.not_bind not_stray_write (fun _ _ => Raises.not_bind not_stray_tokens (fun _ _ => ?_))
  refine Raises.not_bind not_stray_kind (fun _ _ => ?_)
  exact Raises.not_bind (not_stray_of_value value_realRequest) (fun _ _ => Raises.of_pure _)

theorem not_stray_opening : ¬Raises Stray (opening w method) :=
  Raises.not_bind not_stray_write (fun _ _ => not_stray_check)

/-- The account of a known operation, or that of the request, is one that the client may not trade or cannot name. -/
def Raised (w : World) (p : Parameters) (row : StoredRow) : Prop :=
  w.may row.account = false ∨ ∀ a, exactAccountId p.accId ≠ .ok a

theorem retry_untyped (hwritten : ∃ s, canonicalRealRequest 1 kind (original p) = .ok s) :
    Raises (fun e => ¬Typed e) (retryRow w kind p row) ↔ Raised w p row := by
  unfold retryRow
  rw [Raises.bind, untyped_access_iff]
  constructor
  · rintro (hno | ⟨_, -, hr⟩)
    · exact .inl hno
    · right
      rcases Raises.bind.mp hr with hr | ⟨a, -, hr⟩
      · exact (untyped_of_value value_account).mp hr
      · rcases Raises.bind.mp hr with hr | ⟨proposed, hp, hr⟩
        · obtain ⟨s, hs⟩ := hwritten
          obtain ⟨t, ht⟩ := canonicalRealRequest_account hs
          exact absurd ht ((untyped_of_value value_realRequest).mp hr t)
        · obtain ⟨p', -, hl, -⟩ := canonicalRealRequest_ok hp
          rw [Json.sortKeys_request] at hl
          exact absurd hr (storedResult_raises (by simp [Typed]) hl)
  · intro h
    by_cases hmay : w.may row.account = true
    · refine .inr ⟨(), access_ok_iff.mpr hmay, Raises.bind.mpr (.inl ((untyped_of_value value_account).mpr ?_))⟩
      rcases h with hno | hbad
      · cases hmay.symm.trans hno
      · exact hbad
    · left
      change w.may row.account = false
      simpa using hmay

/-- The legs of a combination are dictionaries. -/
def Dictionaries : Value → Prop
  | .list vs => ∀ v ∈ vs, ∃ fields, v = .object fields
  | _ => True

theorem not_stray_leg {index : ℕ} {fields : Fields} : ¬Raises Stray (buildLeg index (.object fields)) := by
  refine Raises.not_bind not_stray_check (fun _ _ => Raises.not_bind not_stray_check (fun _ _ => ?_))
  refine Raises.not_bind ?_ (fun _ _ => Raises.not_bind ?_ (fun _ _ => Raises.of_pure _))
  · unfold qtyRatioOf
    split
    · simp [legError]
    · split_ifs <;> simp [legError]
    · simp [legError]
  · unfold positionIdOf
    split
    · exact Raises.of_ok _
    · simp [legError]
    · split_ifs <;> simp [legError]
    · dsimp only
      split_ifs <;> simp [legError]
    · simp [legError]

theorem not_stray_legs {vs : List Value} (h : ∀ v ∈ vs, ∃ fields, v = .object fields) (index : ℕ) :
    ¬Raises Stray (buildLegs index vs) := by
  induction vs generalizing index with
  | nil => exact Raises.of_ok _
  | cons v vs ih =>
      obtain ⟨fields, rfl⟩ := h v (List.mem_cons_self ..)
      refine Raises.not_bind not_stray_leg (fun _ _ => ?_)
      exact Raises.not_bind (ih (fun v hv => h v (List.mem_cons_of_mem _ hv)) (index + 1)) (fun _ _ => Raises.of_pure _)

theorem not_stray_market (hlegs : Dictionaries (Value.get p.others "combo_legs")) : ¬Raises Stray (marketOf kind p) := by
  have hbuild : ∀ v, Dictionaries v → ¬Raises Stray (buildComboLegs v) := by
    intro v hv
    cases v with
    | list vs =>
        refine Raises.not_bind not_stray_check (fun _ _ => Raises.not_bind (not_stray_legs hv 0) (fun _ _ => ?_))
        exact Raises.not_bind not_stray_check (fun _ _ => Raises.of_pure _)
    | null | bool _ | number _ | text _ | object _ => simp [buildComboLegs, Stray]
  refine Raises.not_ite (Raises.of_ok _) (Raises.not_ite ?_ (Raises.of_ok _))
  rw [Raises.map]
  exact hbuild _ hlegs

/-- A price that the request gives is an integer that has no float. -/
def RequestOverflows (method : String) (p : Parameters) : Prop :=
  if method = "place_order" then
    isText (Value.get p.others "price") = false ∧ Overflows method (placeValues p).values
  else if method = "place_combo_order" then Overflows method (comboValues p)
  else
    PaperRequests.positiveOrderId (Value.get p.others "order_id") = true ∧ method = "modify_order" ∧
      modifyOps.contains (requestedOp p) = true ∧ Overflows method (patchValues p)

/-- After a check that has passed, only the rest strays. -/
theorem check_stray {α : Type} {ok : Bool} {message : String} {rest : Unit → Except Exc α} :
    Raises Stray (check ok message >>= rest) ↔ ok = true ∧ Raises Stray (rest ()) := by
  rw [Raises.bind_of_not not_stray_check]
  cases ok with
  | true => exact ⟨fun ⟨_, _, hr⟩ => ⟨rfl, hr⟩, fun ⟨_, hr⟩ => ⟨(), rfl, hr⟩⟩
  | false => exact iff_of_false (fun ⟨_, h, _⟩ => nomatch h) (fun h => nomatch h.1)

theorem valid_stray : Raises Stray (validateRealRequest method p) ↔ RequestOverflows method p := by
  unfold validateRealRequest RequestOverflows
  by_cases hplace : method = "place_order"
  · rw [if_pos hplace, if_pos hplace, check_stray, single_stray]
    simp
  · rw [if_neg hplace, if_neg hplace]
    by_cases hcombo : method = "place_combo_order"
    · rw [if_pos hcombo, if_pos hcombo, values_stray]
    · rw [if_neg hcombo, if_neg hcombo, check_stray]
      refine and_congr_right (fun _ => ?_)
      by_cases hmodify : method = "modify_order"
      · rw [if_pos hmodify, check_stray, values_stray, and_iff_right hmodify]
      · rw [if_neg hmodify]
        exact iff_of_false (Raises.of_ok ()) (fun h => hmodify h.1)

theorem preflight_stray (hlegs : Dictionaries (Value.get p.others "combo_legs")) :
    Raises Stray (preflight w method kind p) ↔ RequestOverflows method p := by
  unfold preflight
  rw [Raises.bind, valid_stray]
  refine or_iff_left ?_
  rintro ⟨_, -, hr⟩
  revert hr
  have hmarket : ¬Raises Stray (do
      if exposing kind p then w.halt.lift
      marketOf kind p) :=
    Raises.not_ite (Raises.not_bind not_stray_lift (fun _ _ => not_stray_market hlegs)) (not_stray_market hlegs)
  have hconnected : ¬Raises Stray (do
      w.ready.lift
      if !w.connected then .error ⟨.runtime, "Trade context not connected", false⟩
      if exposing kind p then w.halt.lift
      marketOf kind p) := by
    refine Raises.not_bind not_stray_lift (fun _ _ => Raises.not_ite ?_ hmarket)
    exact Raises.not_bind (by simp [Stray]) (fun _ h => by cases h)
  exact Raises.not_ite (Raises.not_bind (by simp [Stray]) (fun _ h => by cases h)) hconnected

/-- The account of a new operation, if the client may not trade it: the allowed one
that the request names, or the only eligible one. -/
def AccountRefused (w : World) (p : Parameters) (market : Option String) : Prop :=
  ∃ a, exactAccountId p.accId = .ok a ∧
    ((a ≠ 0 ∧ (w.policy.allowlistApplies "REAL" = true → a ∈ w.policy.realAccIds) ∧ w.may a = false) ∨
      (a = 0 ∧ ∃ row, eligibleAccounts w.policy w.accounts.lift w.grants "REAL" market = .ok [row] ∧
        w.may row.accId = false))

theorem not_stray_allowlist : ¬Raises Stray (w.policy.checkRealAllowlist a) := by
  unfold AccountPolicy.checkRealAllowlist
  exact Raises.not_ite (by simp) (Raises.not_ite (by simp) (Raises.of_ok ()))

theorem allowlist_ok_iff : w.policy.checkRealAllowlist a = .ok () ↔ a ∈ w.policy.realAccIds := by
  unfold AccountPolicy.checkRealAllowlist
  by_cases hnone : w.policy.realAccIds = []
  · rw [if_pos hnone, hnone]
    simp
  · rw [if_neg hnone]
    by_cases hmem : a ∈ w.policy.realAccIds
    · rw [if_neg (not_not.mpr hmem)]
      exact iff_of_true rfl hmem
    · rw [if_pos hmem]
      exact iff_of_false (fun h => nomatch h) hmem

/-- Access, then the account. -/
theorem access_stray {b : Account} : Raises Stray (do
    checkAccountAccess w.grants "REAL" (toString a) true
    return b) ↔ w.may a = false := by
  rw [Raises.bind, stray_access_iff]
  exact or_iff_left (fun ⟨_, _, hr⟩ => Raises.of_pure _ hr)

theorem account_stray : Raises Stray (account w p market) ↔ AccountRefused w p market := by
  unfold account
  rw [Raises.bind_of_not (not_stray_of_value value_account)]
  refine exists_congr (fun a => and_congr_right (fun _ => ?_))
  unfold resolveExact
  by_cases h0 : a = 0
  · rw [if_neg (not_not.mpr h0), Raises.bind_of_not ?_]
    · constructor
      · rintro ⟨rows, hrows, hr⟩
        refine .inr ⟨h0, ?_⟩
        split at hr
        · exact ⟨_, hrows, access_stray.mp hr⟩
        · exact absurd hr (by simp [noAccount])
        · exact absurd hr (by simp [severalAccounts])
      · rintro (⟨hne, -⟩ | ⟨-, row, hrow, hmay⟩)
        · exact absurd h0 hne
        · exact ⟨[row], hrow, access_stray.mpr hmay⟩
    · unfold eligibleAccounts
      split
      · simp
      · exact Raises.of_ok _
  · rw [if_pos h0]
    by_cases hlist : w.policy.allowlistApplies "REAL" = true
    · rw [if_pos hlist, Raises.bind_of_not not_stray_allowlist]
      constructor
      · rintro ⟨_, hmem, hr⟩
        exact .inl ⟨h0, fun _ => allowlist_ok_iff.mp hmem, access_stray.mp hr⟩
      · rintro (⟨-, hmem, hmay⟩ | ⟨h, -⟩)
        · exact ⟨(), allowlist_ok_iff.mpr (hmem hlist), access_stray.mpr hmay⟩
        · exact absurd h h0
    · rw [if_neg hlist]
      refine access_stray.trans ?_
      constructor
      · exact fun hmay => .inl ⟨h0, fun h => absurd h hlist, hmay⟩
      · rintro (⟨-, -, hmay⟩ | ⟨h, -⟩)
        · exact hmay
        · exact absurd h h0

/-- A refusal after the admission always tells so. -/
theorem classified_dispatch : (dispatch w method).Classified := by
  unfold dispatch
  cases w.attempt with
  | ok _ => exact classified_ok
  | error e =>
      rintro _ ⟨⟩
      unfold refusal
      split_ifs with he
      · exact ⟨.inl he, fun _ => rfl⟩
      · exact ⟨.inl rfl, fun _ => rfl⟩

theorem insert_classified_iff (hwritten : ∃ s, canonicalRealRequest 1 kind (original p) = .ok s) :
    (insertRow w method kind p a).Classified ↔ ¬∃ row, w.insert = .ok (some row) ∧ Raised w p row := by
  obtain ⟨s, hs⟩ := hwritten
  obtain ⟨t, ht⟩ : ∃ t, canonicalRealRequest a kind (original p) = .ok t := canonicalRealRequest_account hs
  unfold insertRow
  rw [ht]
  cases hinsert : w.insert with
  | error failure =>
      refine iff_of_true (classified_scope.mpr (fun hs => ?_)) (fun ⟨_, h, _⟩ => nomatch h)
      exact @not_stray_lift _ (.error failure : Answer (Option StoredRow)) ⟨_, rfl, hs⟩
  | ok found =>
      cases found with
      | some row =>
          refine (classified_plain.trans (not_congr (retry_untyped ⟨s, hs⟩))).trans (not_congr ?_)
          constructor
          · exact fun h => ⟨row, rfl, h⟩
          · rintro ⟨_, h, hraised⟩
            cases h
            exact hraised
      | none => exact iff_of_true classified_dispatch (fun ⟨_, h, _⟩ => nomatch h)

theorem resume_classified_iff (hwritten : ∃ s, canonicalRealRequest 1 kind (original p) = .ok s)
    {late : Option StoredRow} {lookup : Except String (Option StoredRow)} {next : Outcome} :
    (resume w kind p (rowOf late lookup) next).Classified ↔
      ¬((∃ row, rowOf late lookup = .ok (some row) ∧ Raised w p row) ∨
        (rowOf late lookup = .ok none ∧ ¬next.Classified)) := by
  have hlookup : ¬Raises (fun e => ¬Typed e) (rowOf late lookup) := by
    cases late with
    | some row => exact Raises.of_ok _
    | none => exact typed_stored
  unfold resume
  cases hfound : rowOf late lookup with
  | error e =>
      rw [hfound] at hlookup
      refine iff_of_true (classified_plain.mpr ?_) (fun h => ?_)
      · rw [Raises.of_error] at hlookup ⊢
        exact hlookup
      · rcases h with ⟨_, h, -⟩ | ⟨h, -⟩ <;> cases h
  | ok found =>
      cases found with
      | some row =>
          refine (classified_plain.trans (not_congr (retry_untyped hwritten))).trans (not_congr ?_)
          constructor
          · exact fun h => .inl ⟨row, rfl, h⟩
          · rintro (⟨_, h, hraised⟩ | ⟨h, -⟩)
            · cases h
              exact hraised
            · cases h
      | none =>
          simp only [Except.ok.injEq, reduceCtorEq, false_and, exists_false, true_and, false_or, not_not]

/-- The failures before the write that reach the caller under another class. A REAL
row that was created is never among them. -/
inductive Escapes (w : World) (method kind : String) (p : Parameters) : Prop
  | stored (row : StoredRow) (found : rowOf w.late w.lookup = .ok (some row)) (raised : Raised w p row)
  | storedMeanwhile (row : StoredRow) (unseen : rowOf w.late w.lookup = .ok none)
      (found : rowOf w.lateAgain w.lookupAgain = .ok (some row)) (raised : Raised w p row)
  | overflow (unseen : rowOf w.late w.lookup = .ok none) (absent : rowOf w.lateAgain w.lookupAgain = .ok none)
      (large : RequestOverflows method p)
  | account (market : Option String) (unseen : rowOf w.late w.lookup = .ok none)
      (absent : rowOf w.lateAgain w.lookupAgain = .ok none) (passed : preflight w method kind p = .ok market)
      (refused : AccountRefused w p market)
  | insertedMeanwhile (row : StoredRow) (unseen : rowOf w.late w.lookup = .ok none)
      (absent : rowOf w.lateAgain w.lookupAgain = .ok none)
      (resolved : ∃ a, (preflight w method kind p >>= account w p) = .ok a) (found : w.insert = .ok (some row))
      (raised : Raised w p row)

/-- What a new operation can raise of another class. -/
def NewEscapes (w : World) (method kind : String) (p : Parameters) : Prop :=
  RequestOverflows method p ∨ (∃ market, preflight w method kind p = .ok market ∧ AccountRefused w p market) ∨
    ((∃ a, (preflight w method kind p >>= account w p) = .ok a) ∧ ∃ row, w.insert = .ok (some row) ∧ Raised w p row)

theorem new_classified_iff (hlegs : Dictionaries (Value.get p.others "combo_legs"))
    (hwritten : ∃ s, canonicalRealRequest 1 kind (original p) = .ok s) :
    (newOperation w method kind p).Classified ↔ ¬NewEscapes w method kind p := by
  have hstray : Raises Stray (preflight w method kind p >>= account w p) ↔
      RequestOverflows method p ∨ ∃ market, preflight w method kind p = .ok market ∧ AccountRefused w p market := by
    rw [Raises.bind, preflight_stray hlegs]
    exact or_congr Iff.rfl (exists_congr (fun _ => and_congr_right (fun _ => account_stray)))
  unfold newOperation NewEscapes
  rw [← or_assoc, ← hstray]
  cases hresolved : (preflight w method kind p >>= account w p) with
  | error e =>
      rw [Raises.of_error]
      refine classified_scope.trans (not_congr ⟨.inl, ?_⟩)
      rintro (h | ⟨⟨_, h⟩, -⟩)
      · exact h
      · cases h
  | ok a =>
      refine (insert_classified_iff hwritten).trans (not_congr ?_)
      constructor
      · exact fun h => .inr ⟨⟨a, rfl⟩, h⟩
      · rintro (h | ⟨-, h⟩)
        · exact absurd h (Raises.of_ok _)
        · exact h

theorem escapes_iff : Escapes w method kind p ↔
    (∃ row, rowOf w.late w.lookup = .ok (some row) ∧ Raised w p row) ∨
      (rowOf w.late w.lookup = .ok none ∧
        ((∃ row, rowOf w.lateAgain w.lookupAgain = .ok (some row) ∧ Raised w p row) ∨
          (rowOf w.lateAgain w.lookupAgain = .ok none ∧ NewEscapes w method kind p))) := by
  constructor
  · intro h
    cases h with
    | stored row found raised => exact .inl ⟨row, found, raised⟩
    | storedMeanwhile row unseen found raised => exact .inr ⟨unseen, .inl ⟨row, found, raised⟩⟩
    | overflow unseen absent large => exact .inr ⟨unseen, .inr ⟨absent, .inl large⟩⟩
    | account market unseen absent passed refused => exact .inr ⟨unseen, .inr ⟨absent, .inr (.inl ⟨market, passed, refused⟩)⟩⟩
    | insertedMeanwhile row unseen absent resolved found raised =>
        exact .inr ⟨unseen, .inr ⟨absent, .inr (.inr ⟨resolved, row, found, raised⟩)⟩⟩
  · rintro (⟨row, found, raised⟩ | ⟨unseen, ⟨row, found, raised⟩ | ⟨absent, h⟩⟩)
    · exact .stored row found raised
    · exact .storedMeanwhile row unseen found raised
    · rcases h with large | ⟨market, passed, refused⟩ | ⟨resolved, row, found, raised⟩
      · exact .overflow unseen absent large
      · exact .account market unseen absent passed refused
      · exact .insertedMeanwhile row unseen absent resolved found raised

theorem execute_classified_iff (hlegs : Dictionaries (Value.get p.others "combo_legs")) :
    (execute w method p).Classified ↔ ¬∃ kind, front w method p = .ok kind ∧ Escapes w method kind p := by
  unfold execute
  cases hfront : front w method p with
  | error e =>
      refine iff_of_true (classified_scope.mpr (fun hs => not_stray_front ⟨e, hfront, hs⟩)) ?_
      exact fun ⟨_, h, _⟩ => nomatch h
  | ok kind =>
      have hwritten : ∃ s, canonicalRealRequest 1 kind (original p) = .ok s := by
        obtain ⟨_, -, h⟩ := Checks.bind_ok.mp hfront
        obtain ⟨_, -, h⟩ := Checks.bind_ok.mp h
        obtain ⟨kind', -, h⟩ := Checks.bind_ok.mp h
        obtain ⟨s, hs, h⟩ := Checks.bind_ok.mp h
        cases h
        exact ⟨s, hs⟩
      have hafter := @resume_classified_iff w kind p hwritten w.lateAgain w.lookupAgain (newOperation w method kind p)
      rw [new_classified_iff hlegs hwritten, not_not] at hafter
      refine (resume_classified_iff hwritten).trans (not_congr ?_)
      rw [hafter, not_not, ← escapes_iff]
      constructor
      · exact fun h => ⟨kind, rfl, h⟩
      · rintro ⟨_, h, hescapes⟩
        cases h
        exact hescapes

theorem opening_ok_iff : opening w method = .ok () ↔ w.policy.checkWrite method "REAL" = .ok () ∧ w.configured = true := by
  unfold opening
  rw [Checks.bind_ok]
  constructor
  · rintro ⟨_, hwrite, h⟩
    refine ⟨hwrite, ?_⟩
    by_contra hc
    rw [check, if_neg hc] at h
    cases h
  · rintro ⟨hwrite, hconfigured⟩
    refine ⟨(), hwrite, ?_⟩
    rw [check, if_pos hconfigured]

theorem call_classified_iff (hlegs : Dictionaries (Value.get p.others "combo_legs")) :
    (call w method p).Classified ↔
      ¬∃ kind, w.configured = true ∧ front w method p = .ok kind ∧ Escapes w method kind p := by
  unfold call
  cases hopening : opening w method with
  | error e =>
      refine iff_of_true (classified_scope.mpr (fun hs => not_stray_opening ⟨e, hopening, hs⟩)) ?_
      rintro ⟨_, hconfigured, hfront, -⟩
      obtain ⟨_, hwrite, -⟩ := Checks.bind_ok.mp hfront
      cases hopening.symm.trans (opening_ok_iff.mpr ⟨hwrite, hconfigured⟩)
  | ok _ =>
      refine (execute_classified_iff hlegs).trans (not_congr ?_)
      exact exists_congr (fun _ => (and_iff_right (opening_ok_iff.mp hopening).2).symm)

end MoomooMcp.RealBoundary
