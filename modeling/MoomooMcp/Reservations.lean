import MoomooMcp.Checks
import MoomooMcp.TradingControls

namespace MoomooMcp.TradingControls

open Checks Intent

variable {β : Type} {st st' : Store} {db db' : Database} {fault : Bool} {now later : ℚ} {r : Reservation}

/-- A transaction either raised and left the database alone, or did what its
statements did. -/
theorem transact_cases {body : Database → Except Abort (β × Database)} {x : Except Exc β}
    (h : transact st db fault body = (x, st', db')) :
    (∃ e, x = .error e) ∧ db' = db ∨ ∃ b, x = .ok b ∧ st' = st ∧ body db = .ok (b, db') := by
  unfold transact at h
  split at h
  · cases h; exact .inl ⟨⟨_, rfl⟩, rfl⟩
  · split at h
    · cases h; exact .inl ⟨⟨_, rfl⟩, rfl⟩
    · split at h
      · next hb => cases h; exact .inr ⟨_, rfl, rfl, hb⟩
      · cases h; exact .inl ⟨⟨_, rfl⟩, rfl⟩
      · cases h; exact .inl ⟨⟨_, rfl⟩, rfl⟩

/-- One day, environment, account and currency with a budget of its own. -/
structure BudgetKey where
  day : ℤ
  environment : String
  account : Account
  currency : String
  deriving DecidableEq

def Charge.counts (c : Charge) (k : BudgetKey) : Prop :=
  c.day = k.day ∧ c.environment = k.environment ∧ c.account = k.account ∧ c.currency = some k.currency

instance (c : Charge) (k : BudgetKey) : Decidable (c.counts k) := inferInstanceAs (Decidable (_ ∧ _))

/-- What the charges of one budget add up to. -/
def total (charges : List Charge) (k : BudgetKey) : ℚ :=
  ((charges.filter (fun c => c.counts k)).map (fun c => c.amount.value)).sum

theorem total_append (cs : List Charge) (c : Charge) (k : BudgetKey) :
    total (cs ++ [c]) k = total cs k + if c.counts k then c.amount.value else 0 := by
  unfold total
  by_cases hc : c.counts k <;> simp [List.filter_append, hc]

theorem spent_total (db : Database) (k : BudgetKey) :
    ((spent db k.day k.environment k.account k.currency).map Decimal.value).sum = total db.charges.rows k := by
  rw [spent, List.map_map]
  rfl

theorem sumExact_value {ds : List Decimal} {d : Decimal} (h : sumExact ds = .ok d) :
    d.value = (ds.map Decimal.value).sum := by
  unfold sumExact at h
  split at h
  · cases h
  · cases hsum : (⟨sumPrecision ds, -999999, 999999⟩ : Decimal.Context).sum ds with
    | none =>
        rw [hsum] at h
        cases h
    | some r =>
        rw [hsum] at h
        cases h
        have hprec : Decimal.integerDigits ds + Decimal.fractionalDigits ds + Decimal.digits ds.length < sumPrecision ds := by
          unfold sumPrecision
          omega
        rw [Decimal.Context.sum_some (c := ⟨sumPrecision ds, -999999, 999999⟩) hprec (by norm_num) (by norm_num) hsum,
          Decimal.value_exactSum]

/-- A positive charge that passed the budget check keeps its budget within the cap. -/
theorem withinBudget_ok {day : ℤ} {environment : String} {account : Account} {currency : Option String}
    {amount : Decimal} {caps : Caps} (hcaps : caps ≠ []) (hpos : 0 < amount.value)
    (h : withinBudget db day environment account currency amount caps = .ok ()) :
    ∃ c cap, currency = some c ∧ caps.lookup c = some cap ∧
      total db.charges.rows ⟨day, environment, account, c⟩ + amount.value ≤ cap.value := by
  unfold withinBudget at h
  rw [if_neg (by simp [hcaps, hpos])] at h
  split at h
  · cases h
  · next c cap hc =>
      obtain ⟨c', hcur, hcap⟩ := Option.bind_eq_some_iff.mp hc
      obtain ⟨cap', hlookup, he⟩ := Option.map_eq_some_iff.mp hcap
      cases he
      obtain ⟨used, hused, h⟩ := bind_ok.mp h
      obtain ⟨charged, hsum, h⟩ := bind_ok.mp h
      have hu := sumExact_value hused
      have hs := sumExact_value hsum
      have ht := spent_total db ⟨day, environment, account, c⟩
      split at h
      · cases h
      · next hle =>
          refine ⟨c, cap, hcur, hlookup, ?_⟩
          rw [← ht, ← hu]
          simpa [hs] using hle

/-- The row of an approval that was accepted. -/
structure Accepts (db : Database) (later : ℚ) (approvalId : Option RequestId) (canonical : String)
    (contract : Option Contract) (id : RequestId) (row : Prepared) : Prop where
  named : approvalId = some id
  found : db.prepared.lookup id = some row
  canonical : row.canonical = canonical
  status : row.status = .approved
  unexpired : later < row.expiresAt
  contract : row.review.contract = contract

theorem approved_ok {approvalId : Option RequestId} {canonical : String} {contract : Option Contract} {row : Prepared}
    (h : approved db later approvalId canonical (some contract) = .ok row) :
    ∃ id, Accepts db later approvalId canonical contract id row := by
  unfold approved at h
  split at h
  · cases h
  · next id hid =>
      split at h
      · cases h
      · next row' hrow =>
          split at h
          · cases h
          · next hcanonical =>
              split at h
              · cases h
              · next hstatus =>
                  split at h
                  · cases h
                  · next hcontract =>
                      cases h
                      rw [not_or, not_not, not_le] at hstatus
                      exact ⟨id, (Option.filter_eq_some_iff.mp hid).1, hrow, not_not.mp hcanonical, hstatus.1, hstatus.2,
                        by simpa using hcontract⟩

/-- The charge a reservation makes. -/
structure Charge.Of (c : Charge) (r : Reservation) (now : ℚ) : Prop where
  canonical : canonicalIntent r.method r.parameters = .ok c.canonical
  environment : c.environment = r.parameters.trdEnv
  account : canonicalAccount r.parameters.accId = .ok c.account
  operation : operation r.parameters = some c.operationId
  day : c.day = utcDay now
  approvalId : c.approvalId = r.approvalId
  nonneg : 0 ≤ c.amount.value

/-- What a successful `consume` did. -/
structure Consumes (db : Database) (now later : ℚ) (r : Reservation) (caps : Caps) (c : Charge) (db' : Database) :
    Prop where
  made : c.Of r now
  fresh : db.charges.lookup c.key = none
  budget : withinBudget db c.day c.environment c.account c.currency c.amount caps = .ok ()
  charges : db'.charges = db.charges.insert c fresh
  pauses : db'.pauses = db.pauses
  prepared : r.requireApproval = false ∧ db'.prepared = db.prepared ∨
    r.requireApproval = true ∧ ∃ id row, Accepts db later r.approvalId c.canonical r.contract id row ∧
      db'.prepared = db.prepared.modify id (·.use now) (fun row => row.use_requestId now)

theorem consumption_ok {charge : Charge} {caps : Caps} (hmade : charge.Of r now)
    (h : consumption db now later r charge caps = .ok ((), db')) : Consumes db now later r caps charge db' := by
  unfold consumption at h
  split at h
  · next hfresh =>
      cases hreq : r.requireApproval with
      | false =>
          rw [hreq] at h
          obtain ⟨_, hbudget, hrest⟩ := bind_ok.mp h
          cases hrest
          exact ⟨hmade, hfresh, hbudget, rfl, rfl, .inl ⟨hreq, rfl⟩⟩
      | true =>
          rw [hreq] at h
          obtain ⟨row, hrow, hafter⟩ := bind_ok.mp h
          obtain ⟨_, hbudget, hrest⟩ := bind_ok.mp hafter
          obtain ⟨id, haccepts⟩ := approved_ok hrow
          cases hrest
          refine ⟨hmade, hfresh, hbudget, rfl, rfl, .inr ⟨hreq, id, row, haccepts, ?_⟩⟩
          rw [haccepts.named]
          rfl
  · split at h <;> cases h

/-- A consumption that succeeds commits one charge. One that fails changes nothing. -/
theorem consume_cases {currency : Option String} {amount : Numeral} {caps : Caps} {x : Except Exc Unit}
    (h : consume st db fault now later r currency amount caps = (x, st', db')) :
    (∃ e, x = .error e) ∧ db' = db ∨ x = .ok () ∧ st' = st ∧ ∃ c, Consumes db now later r caps c db' := by
  unfold consume at h
  split at h
  · cases h; exact .inl ⟨⟨_, rfl⟩, rfl⟩
  · cases h; exact .inl ⟨⟨_, rfl⟩, rfl⟩
  · next canonical account hcanonical haccount =>
      split at h
      · cases h; exact .inl ⟨⟨_, rfl⟩, rfl⟩
      · cases h; exact .inl ⟨⟨_, rfl⟩, rfl⟩
      · next op d hop =>
          split at h
          · cases h; exact .inl ⟨⟨_, rfl⟩, rfl⟩
          · next hneg =>
              rcases transact_cases h with ⟨he, hdb⟩ | ⟨_, hx, hst, hb⟩
              · exact .inl ⟨he, hdb⟩
              · refine .inr ⟨hx, hst, _, consumption_ok ?_ hb⟩
                exact ⟨hcanonical, rfl, haccount, hop, rfl, rfl, not_lt.mp hneg⟩

/-- What a successful `prepare` stored. -/
structure Prepares (db : Database) (row : Prepared) (db' : Database) : Prop where
  canonical : canonicalIntent row.method row.parameters = .ok row.canonical
  status : row.status = .pending
  fresh : db.prepared.lookup row.requestId = none
  prepared : db'.prepared = db.prepared.insert row fresh
  charges : db'.charges = db.charges
  pauses : db'.pauses = db.pauses

theorem prepare_cases {identifier : RequestId} {method : String} {p : Parameters} {review : Review} {ttl : ℤ}
    {x : Except Exc Prepared} (h : prepare st db fault now identifier method p review ttl = (x, st', db')) :
    (∃ e, x = .error e) ∧ db' = db ∨ ∃ row, x = .ok row ∧ Prepares db row db' := by
  unfold prepare at h
  split at h
  · cases h; exact .inl ⟨⟨_, rfl⟩, rfl⟩
  · split at h
    · cases h; exact .inl ⟨⟨_, rfl⟩, rfl⟩
    · next canonical hcanonical =>
        split at h
        · cases h; exact .inl ⟨⟨_, rfl⟩, rfl⟩
        · rcases transact_cases h with ⟨he, hdb⟩ | ⟨row, hx, _, hb⟩
          · exact .inl ⟨he, hdb⟩
          · dsimp only at hb
            split at hb
            · next hfresh =>
                cases hb
                exact .inr ⟨_, hx, hcanonical, rfl, hfresh, rfl, rfl, rfl⟩
            · cases hb

/-- What a successful decision changed. -/
structure Decides (db : Database) (now : ℚ) (id : RequestId) (db' : Database) : Prop where
  changed : ∃ row status operatorId reason decidedAt, db.prepared.lookup id = some row ∧ row.status = .pending ∧
    now < row.expiresAt ∧ (status = .approved ∨ status = .rejected) ∧
    db'.prepared = db.prepared.modify id (·.decided status operatorId reason decidedAt)
      (fun row => row.decided_requestId status operatorId reason decidedAt)
  charges : db'.charges = db.charges
  pauses : db'.pauses = db.pauses

theorem decision_cases {choice : String} {status : Status} (h : decision choice = some status) :
    status = .approved ∨ status = .rejected := by
  unfold decision at h
  split at h <;> cases h
  · exact .inl rfl
  · exact .inr rfl

theorem decide_cases {decidedAt : ℚ} {id : RequestId} {choice operatorId reason : String} {x : Except Exc Unit}
    (h : decide st db fault now decidedAt id choice operatorId reason = (x, st', db')) :
    (∃ e, x = .error e) ∧ db' = db ∨ x = .ok () ∧ Decides db now id db' := by
  unfold decide at h
  split at h
  · cases h; exact .inl ⟨⟨_, rfl⟩, rfl⟩
  · next status hstatus =>
      split at h
      · cases h; exact .inl ⟨⟨_, rfl⟩, rfl⟩
      · split at h
        · cases h; exact .inl ⟨⟨_, rfl⟩, rfl⟩
        · rcases transact_cases h with ⟨he, hdb⟩ | ⟨_, hx, _, hb⟩
          · exact .inl ⟨he, hdb⟩
          · split at hb
            · cases hb
            · next row hrow =>
                split at hb
                · cases hb
                · next hopen =>
                    rw [not_or, not_not, not_le] at hopen
                    cases hb
                    exact .inr ⟨hx, ⟨row, status, operatorId, reason, decidedAt, hrow, hopen.1, hopen.2,
                      decision_cases hstatus, rfl⟩, rfl, rfl⟩

/-- What a reservation has to be for its confirmation to pass. -/
structure Confirms (db : Database) (now later : ℚ) (r : Reservation) (c : Charge) : Prop where
  charged : ∃ account, canonicalAccount r.parameters.accId = .ok account ∧
    db.charges.lookup (r.parameters.trdEnv, account, r.parameters.operationId.getD "") = some c
  canonical : canonicalIntent r.method r.parameters = .ok c.canonical
  day : c.day = utcDay now
  approved : r.requireApproval = true → ∃ id row, r.approvalId = some id ∧ db.prepared.lookup id = some row ∧
    row.canonical = c.canonical ∧ row.status = .consumed ∧ c.approvalId = some id ∧ later < row.expiresAt ∧
    row.review.contract = r.contract

theorem confirmation_ok {canonical : String} {key : ChargeKey}
    (h : confirmation db now later r canonical key = .ok ()) :
    ∃ c, db.charges.lookup key = some c ∧ c.canonical = canonical ∧ c.day = utcDay now ∧
      (r.requireApproval = true → ∃ id row, r.approvalId = some id ∧ db.prepared.lookup id = some row ∧
        row.canonical = c.canonical ∧ row.status = .consumed ∧ c.approvalId = some id ∧ later < row.expiresAt ∧
        row.review.contract = r.contract) := by
  unfold confirmation at h
  split at h
  · cases h
  · next c hc =>
      split at h
      · cases h
      · next hcanonical =>
          split at h
          · cases h
          · next hday =>
              refine ⟨c, hc, not_not.mp hcanonical, not_not.mp hday, fun hreq => ?_⟩
              rw [if_neg (by simp [hreq])] at h
              split at h
              · cases h
              · next row hrow =>
                  obtain ⟨id, hid, hlookup⟩ := Option.bind_eq_some_iff.mp hrow
                  split at h
                  · cases h
                  · next hvalid =>
                      simp only [not_or, not_not, not_le] at hvalid
                      split at h
                      · cases h
                      · next hcontract =>
                          exact ⟨id, row, hid, hlookup, hvalid.1.trans (not_not.mp hcanonical).symm, hvalid.2.1,
                            hvalid.2.2.1.trans hid, hvalid.2.2.2, not_not.mp hcontract⟩

theorem confirmReservation_cases {x : Except Exc Unit}
    (h : confirmReservation st db fault now later r = (x, st', db')) :
    db' = db ∧ (x = .ok () → ∃ c, Confirms db now later r c) := by
  unfold confirmReservation at h
  split at h
  · cases h; exact ⟨rfl, nofun⟩
  · cases h; exact ⟨rfl, nofun⟩
  · next canonical account hcanonical haccount =>
      rcases transact_cases h with ⟨⟨e, he⟩, hdb⟩ | ⟨_, hx, _, hb⟩
      · exact ⟨hdb, fun hok => by rw [he] at hok; cases hok⟩
      · obtain ⟨_, hconfirm, hrest⟩ := bind_ok.mp hb
        cases hrest
        obtain ⟨c, hc, hcc, hday, happroved⟩ := confirmation_ok hconfirm
        exact ⟨rfl, fun _ => ⟨c, ⟨account, haccount, hc⟩, by rw [hcc]; exact hcanonical, hday, happroved⟩⟩

theorem setPause_frame (db : Database) (p : Pause) :
    (db.setPause p).prepared = db.prepared ∧ (db.setPause p).charges = db.charges := by
  unfold Database.setPause
  split <;> exact ⟨rfl, rfl⟩

/-- A pause call changes the pauses only, and at most the entry it names. -/
theorem setPaused_cases {readFault : Bool} {environment operatorId reason account : String} {paused : Bool}
    {x : Except Exc Bool}
    (h : setPaused st db fault readFault now environment paused operatorId reason account = (x, st', db')) :
    (∃ e, x = .error e) ∧ db' = db ∨ ∃ scope, pauseScope environment account = .ok scope ∧
      db' = db.setPause ⟨scope.1, scope.2, paused, operatorId, reason, now⟩ := by
  unfold setPaused at h
  split at h
  · cases h; exact .inl ⟨⟨_, rfl⟩, rfl⟩
  · next scope hscope =>
      split at h
      · cases h; exact .inl ⟨⟨_, rfl⟩, rfl⟩
      · split at h
        · cases h; exact .inl ⟨⟨_, rfl⟩, rfl⟩
        · split at h
          · next ht =>
              cases h
              rcases transact_cases ht with ⟨_, hdb⟩ | ⟨_, hx, _⟩
              · exact .inl ⟨⟨_, rfl⟩, hdb⟩
              · cases hx
          · next ht =>
              rcases transact_cases ht with ⟨⟨_, he⟩, _⟩ | ⟨_, _, _, hb⟩
              · cases he
              · cases h
                exact .inr ⟨scope, hscope, (congrArg Prod.snd (Except.ok.inj hb)).symm⟩

end MoomooMcp.TradingControls
