import MoomooMcp.PreDispatch
import MoomooMcp.Reservations

namespace MoomooMcp.Approvals

open Intent PreDispatch TradingControls

/-- The prepared row as the store has it later on. Only its status has changed. -/
structure Held (row : Prepared) (db : Database) (status : Status) : Prop where
  stored : ∃ held, db.prepared.lookup row.requestId = some held ∧ held.canonical = row.canonical ∧
    held.review = row.review ∧ held.expiresAt = row.expiresAt ∧ held.status = status

def mismatches : List Exc :=
  [controlError "Approval does not match the exact request",
    controlError "Approved target contract changed; prepare again"]

/-- A refusal because the request or its contract is not the approved one. -/
def Mismatch (e : Exc) : Prop := e ∈ mismatches

instance (e : Exc) : Decidable (Mismatch e) := inferInstanceAs (Decidable (e ∈ mismatches))

/-- The charge of a reservation is committed, and the approval it used is consumed. -/
structure Reserved (row : Prepared) (r : Reservation) (db : Database) (now : ℚ) : Prop where
  charged : ∃ c made, c.Of r made ∧ db.charges.lookup c.key = some c ∧ utcDay made = utcDay now
  held : Held row db .consumed

/-- What is approved is not refused for a request or a contract that does not match. After
its consumption no more than the store itself can refuse it, within the day and before expiry. -/
structure Executable (row : Prepared) (r : Reservation) : Prop where
  consumed : ∀ st db fault now later currency amount caps, Held row db .approved → later < row.expiresAt →
    ¬Raises Mismatch (consume st db fault now later r currency amount caps).1
  confirmed : ∀ st db fault now later, Reserved row r db now → later < row.expiresAt →
    ¬Raises (· ≠ blocked) (confirmReservation st db fault now later r).1

/-- The request and the contract of a reservation are those that were prepared. -/
structure Matches (row : Prepared) (r : Reservation) : Prop where
  canonical : canonicalIntent r.method r.parameters = .ok row.canonical
  contract : row.review.contract = r.contract

/-- What a transaction raises for its statements. -/
def Abort.Is (P : Exc → Prop) : Abort → Prop
  | .raised e => P e
  | .database => P blocked

variable {β : Type} {P : Exc → Prop} {st : Store} {db : Database} {fault : Bool} {now later : ℚ} {row : Prepared}
  {r : Reservation} {currency : Option String} {amount : Numeral} {caps : Caps} {status : Status} {message : String}

theorem transact_raises {body : Database → Except Abort (β × Database)} (hblocked : ¬P blocked)
    (hbody : ¬Raises (Abort.Is P) (body db)) : ¬Raises P (transact st db fault body).1 := by
  unfold transact
  split
  · rwa [Raises.of_error]
  · split
    · rwa [Raises.of_error]
    · split
      · exact Raises.of_ok _
      · next e he =>
          rw [he, Raises.of_error] at hbody
          rwa [Raises.of_error]
      · rwa [Raises.of_error]

theorem refuse_raises : Raises (Abort.Is P) (refuse message : Except Abort β) ↔ P (controlError message) :=
  Raises.of_error _

theorem not_mismatch_of_value {x : Except Exc β} (h : ¬Raises NotValue x) : ¬Raises Mismatch x := by
  refine fun hx => h (hx.mono (fun e he hv => ?_))
  have htypes : ∀ e ∈ mismatches, e.type = .tradingControl := by decide
  cases hv.symm.trans (htypes e he)

mutual

theorem value_numbers : ∀ v : Value, ¬Raises NotValue (Intent.number v)
  | .number (.finite d) => by
      rw [Intent.number]
      exact Raises.not_ite (by simp) (Raises.of_ok _)
  | .number .nonFinite => by
      rw [Intent.number]
      simp
  | .list vs => by
      rw [Intent.number]
      exact Raises.not_bind (value_numberItems vs) (fun _ _ => Raises.of_pure _)
  | .object fields => by
      rw [Intent.number]
      exact Raises.not_bind (value_numberFields fields) (fun _ _ => Raises.of_pure _)
  | .null | .bool _ | .text _ => Raises.of_ok _

theorem value_numberItems : ∀ vs : List Value, ¬Raises NotValue (numbers vs)
  | [] => Raises.of_ok _
  | v :: vs => by
      rw [numbers]
      refine Raises.not_bind (value_numbers v) (fun _ _ => ?_)
      exact Raises.not_bind (value_numberItems vs) (fun _ _ => Raises.of_pure _)

theorem value_numberFields : ∀ fields : List (String × Value), ¬Raises NotValue (numberFields fields)
  | [] => Raises.of_ok _
  | (_, v) :: fields => by
      rw [numberFields]
      refine Raises.not_bind (value_numbers v) (fun _ _ => ?_)
      exact Raises.not_bind (value_numberFields fields) (fun _ _ => Raises.of_pure _)

end

theorem value_canonicalSession {env : String} {session : Option String} : ¬Raises NotValue (canonicalSession env session) := by
  cases session with
  | none => exact Raises.of_ok _
  | some s =>
      refine Raises.not_bind ?_ (fun _ _ => Raises.of_pure _)
      unfold normalizeOrderSession
      dsimp only
      split_ifs <;> simp [sessionError]

theorem value_intent {method : String} {p : Parameters} : ¬Raises NotValue (canonicalIntent method p) := by
  refine Raises.not_bind value_exact (fun _ _ => ?_)
  refine Raises.not_bind value_canonicalSession (fun _ _ => ?_)
  refine Raises.not_bind (value_numbers _) (fun _ _ => ?_)
  exact Raises.not_ite (by simp) (Raises.of_ok _)

theorem sumExact_raises {ds : List Decimal} : ¬Raises (Abort.Is Mismatch) (sumExact ds) := by
  unfold sumExact
  split
  · rw [Raises.of_error]
    exact show ¬Mismatch (valueError "valid range for prec is [1, MAX_PREC]") by decide
  · cases (⟨sumPrecision ds, -999999, 999999⟩ : Decimal.Context).sum ds with
    | none =>
        rw [Option.elim_none, Raises.of_error]
        exact show ¬Mismatch ⟨.other, "[<class 'decimal.Overflow'>]", false⟩ by decide
    | some d => exact Raises.of_ok d

/-- A budget that is exceeded is told by a text of its own. -/
theorem budget_message (text : String) : ¬Mismatch (controlError ("Daily submission budget exceeded: " ++ text)) := by
  intro h
  have hhead : ∀ e ∈ mismatches, e.message.toList.head? = some 'A' := by decide
  have := hhead _ h
  rw [controlError, String.toList_append] at this
  cases this

theorem withinBudget_raises {day : ℤ} {environment : String} {account : Account} {charge : Decimal} :
    ¬Raises (Abort.Is Mismatch) (withinBudget db day environment account currency charge caps) := by
  unfold withinBudget
  refine Raises.not_ite (Raises.of_ok _) ?_
  split
  · rw [refuse_raises]
    decide
  · refine Raises.not_bind sumExact_raises (fun _ _ => Raises.not_bind sumExact_raises (fun _ _ => ?_))
    refine Raises.not_ite ?_ (Raises.of_ok _)
    rw [refuse_raises, String.append_assoc, String.append_assoc]
    exact budget_message _

theorem approved_raises {canonical : String} (hheld : Held row db .approved) (hlater : later < row.expiresAt)
    (hid : r.approvalId = some row.requestId) (hcanonical : row.canonical = canonical)
    (hcontract : row.review.contract = r.contract) :
    ¬Raises (Abort.Is Mismatch) (approved db later r.approvalId canonical (some r.contract)) := by
  obtain ⟨held, hlookup, hsame, hreview, hexpires, hstatus⟩ := hheld.stored
  unfold approved
  rw [hid]
  split
  · rw [refuse_raises]
    decide
  · next id hfilter =>
      obtain ⟨hsome, -⟩ := Option.filter_eq_some_iff.mp hfilter
      cases hsome
      rw [hlookup]
      dsimp only
      rw [if_neg (not_not.mpr (hsame.trans hcanonical)), if_neg (by rw [hstatus, hexpires, not_or]; exact ⟨by decide, not_le.mpr hlater⟩),
        if_neg (by simp [hreview, hcontract])]
      exact Raises.of_ok _

theorem consumption_raises {charge : Charge}
    (happroved : r.requireApproval = true → ¬Raises (Abort.Is Mismatch) (approved db later r.approvalId charge.canonical (some r.contract))) :
    ¬Raises (Abort.Is Mismatch) (consumption db now later r charge caps) := by
  unfold consumption
  split
  · cases hrequired : r.requireApproval with
    | false => exact Raises.not_bind withinBudget_raises (fun _ _ => Raises.of_pure _)
    | true =>
        refine Raises.not_bind (happroved hrequired) (fun _ _ => ?_)
        exact Raises.not_bind withinBudget_raises (fun _ _ => Raises.of_pure _)
  · refine Raises.not_ite ?_ ?_ <;>
    · rw [refuse_raises]
      decide

theorem consume_raises
    (happroved : ∀ canonical, canonicalIntent r.method r.parameters = .ok canonical → r.requireApproval = true →
      ¬Raises (Abort.Is Mismatch) (approved db later r.approvalId canonical (some r.contract))) :
    ¬Raises Mismatch (consume st db fault now later r currency amount caps).1 := by
  unfold consume
  split
  · next e he => exact (Raises.of_error e).not.mpr (fun hm => not_mismatch_of_value value_intent ⟨e, he, hm⟩)
  · next e _ he => exact (Raises.of_error e).not.mpr (fun hm => not_mismatch_of_value value_exact ⟨e, he, hm⟩)
  · next canonical account hcanonical haccount =>
      split
      · rw [Raises.of_error]
        decide
      · rw [Raises.of_error]
        decide
      · split
        · rw [Raises.of_error]
          decide
        · exact transact_raises (by decide) (consumption_raises (happroved canonical hcanonical))

/-- A reservation that is charged and consumed is confirmed, if it matches. -/
theorem confirmation_reserved (hreserved : Reserved row r db now) (hlater : later < row.expiresAt)
    (hid : r.approvalId = some row.requestId) (hmatches : r.requireApproval = true → Matches row r) :
    ¬Raises (· ≠ blocked) (confirmReservation st db fault now later r).1 := by
  obtain ⟨c, made, hc, hcharge, hday⟩ := hreserved.charged
  obtain ⟨held, hlookup, hsame, hreview, hexpires, hstatus⟩ := hreserved.held.stored
  have hoperation : r.parameters.operationId.getD "" = c.operationId := by
    have hop := hc.operation
    unfold operation at hop
    split at hop
    · rw [(Option.filter_eq_some_iff.mp hop).1, Option.getD_some]
    · cases hop
  have hkey : (r.parameters.trdEnv, c.account, r.parameters.operationId.getD "") = c.key := by
    rw [hoperation, ← hc.environment, Charge.key]
  unfold confirmReservation
  rw [hc.canonical, hc.account]
  refine transact_raises (by simp) ?_
  refine Raises.not_bind ?_ (fun _ _ => Raises.of_pure _)
  unfold confirmation
  rw [hkey, hcharge]
  dsimp only
  rw [if_neg (not_not.mpr rfl), if_neg (not_not.mpr (hc.day.trans hday))]
  cases hrequired : r.requireApproval with
  | false => exact Raises.of_ok _
  | true =>
      have hmatch := hmatches hrequired
      have hcanonical : row.canonical = c.canonical := Except.ok.inj (hmatch.canonical.symm.trans hc.canonical)
      have hused : ¬(held.canonical ≠ c.canonical ∨ held.status ≠ .consumed ∨ c.approvalId ≠ r.approvalId ∨
          held.expiresAt ≤ later) := by
        rw [hsame, hcanonical, hstatus, hc.approvalId, hexpires]
        simp [hlater]
      rw [hid, Option.bind_some, hlookup]
      rw [hid] at hused
      dsimp only
      rw [if_neg hused, hreview, if_neg (not_not.mpr hmatch.contract)]
      exact Raises.of_ok _

theorem executable_of_matches (hid : r.approvalId = some row.requestId) (hmatches : r.requireApproval = true → Matches row r) :
    Executable row r where
  consumed st db fault now later currency amount caps hheld hlater := by
    refine consume_raises (fun canonical hcanonical hrequired => ?_)
    have hmatch := hmatches hrequired
    have hsame := Except.ok.inj (hmatch.canonical.symm.trans hcanonical)
    exact approved_raises hheld hlater hid hsame hmatch.contract
  confirmed _ _ _ _ _ hreserved hlater := confirmation_reserved hreserved hlater hid hmatches

/-- A store that holds no more than one row, which is approved. -/
def holding (row : Prepared) : Database :=
  { Database.initial with prepared := Table.empty.insert { row with status := .approved } (Table.lookup_empty _) }

theorem holding_lookup : (holding row).prepared.lookup row.requestId = some { row with status := .approved } :=
  Table.lookup_of_mem (T := (holding row).prepared) (List.mem_singleton.mpr rfl)

theorem holding_held : Held row (holding row) .approved := ⟨_, holding_lookup, rfl, rfl, rfl, rfl⟩

/-- An approval whose contract has changed is refused, where nothing else refuses it. -/
theorem changed_refused {op : OperationId} {account : Account} (hid : r.approvalId = some row.requestId)
    (hminted : row.requestId ≠ "") (hrequired : r.requireApproval = true)
    (hcanonical : canonicalIntent r.method r.parameters = .ok row.canonical)
    (haccount : canonicalAccount r.parameters.accId = .ok account) (hop : operation r.parameters = some op)
    (hcontract : row.review.contract ≠ r.contract) : ¬Executable row r := by
  intro h
  have hlater : row.expiresAt - 1 < row.expiresAt := by linarith
  refine h.consumed .opened (holding row) false 0 _ none (.finite ⟨0, 0⟩) [] holding_held hlater
    ⟨controlError "Approved target contract changed; prepare again", ?_, by decide⟩
  have hused : ¬(Status.approved ≠ .approved ∨ row.expiresAt ≤ row.expiresAt - 1) := by
    rw [not_or, not_le]
    exact ⟨not_not.mpr rfl, hlater⟩
  have happroved : approved (holding row) (row.expiresAt - 1) r.approvalId row.canonical (some r.contract) =
      refuse "Approved target contract changed; prepare again" := by
    unfold approved
    rw [hid, Option.filter_some, if_pos (by simpa using hminted)]
    dsimp only
    rw [holding_lookup]
    dsimp only
    rw [if_neg (not_not.mpr rfl), if_neg hused, if_pos (by simpa using hcontract)]
  have hrefused : ∀ charge : Charge, charge.canonical = row.canonical →
      consumption (holding row) 0 (row.expiresAt - 1) r charge [] = refuse "Approved target contract changed; prepare again" := by
    intro charge hcharge
    unfold consumption
    rw [dif_pos (show (holding row).charges.lookup charge.key = none from rfl), hrequired, if_pos rfl, hcharge, happroved]
    rfl
  have hvalue : ¬(⟨0, 0⟩ : Decimal).value < 0 := by simp [Decimal.value]
  unfold consume
  rw [hcanonical, haccount]
  dsimp only
  rw [hop]
  dsimp only
  rw [if_neg hvalue, transact, if_neg (by decide), if_neg (by decide), hrefused _ rfl]
  rfl

end MoomooMcp.Approvals
