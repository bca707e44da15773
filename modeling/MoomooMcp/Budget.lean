import MoomooMcp.Machine
import MoomooMcp.Reservations

namespace MoomooMcp.Budget

open Intent TradingControls Machine

/-- A committed charge with what it was committed under, and the clock reading
its approval was checked at. -/
structure Commit where
  charge : Charge
  reservation : Reservation
  caps : Caps
  checked : ℚ

/-- The store over all its life. The database survives a restart. `history`
lists the charges committed since the store was created. -/
structure Sys where
  db : Database
  store : Store
  history : List Commit

def initial : Sys := ⟨.initial, .opened, []⟩

inductive Action
  | prepare (fault : Bool) (now : ℚ) (identifier : RequestId) (method : String) (p : Parameters) (review : Review)
      (ttlSeconds : ℤ)
  | decide (fault : Bool) (now decidedAt : ℚ) (id : RequestId) (choice operatorId reason : String)
  | consume (fault : Bool) (now later : ℚ) (r : Reservation) (currency : Option String) (amount : Numeral) (caps : Caps)
  | confirm (fault : Bool) (now later : ℚ) (r : Reservation)
  | setPaused (fault readFault : Bool) (now : ℚ) (environment : String) (paused : Bool)
      (operatorId reason account : String)
  | close
  | restart

def stored {β : Type} (s : Sys) (x : Except Exc β × Store × Database) : Sys := { s with db := x.2.2, store := x.2.1 }

def step (s : Sys) : Action → Option Sys
  | .prepare fault now identifier method p review ttl =>
      some (stored s (prepare s.store s.db fault now identifier method p review ttl))
  | .decide fault now decidedAt id choice operatorId reason =>
      some (stored s (decide s.store s.db fault now decidedAt id choice operatorId reason))
  | .consume fault now later r currency amount caps =>
      match consume s.store s.db fault now later r currency amount caps with
      | (.error _, st, db) => some { s with db := db, store := st }
      | (.ok (), st, db) =>
          some ⟨db, st, s.history ++ (db.charges.rows.getLast?.map (fun c => ⟨c, r, caps, later⟩)).toList⟩
  | .confirm fault now later r => some (stored s (confirmReservation s.store s.db fault now later r))
  | .setPaused fault readFault now environment paused operatorId reason account =>
      some (stored s (setPaused s.store s.db fault readFault now environment paused operatorId reason account))
  | .close => some { s with store := { s.store with closed := true } }
  | .restart => some { s with store := .opened }

/-- A charge that was accepted is the last one of the history. -/
theorem step_charged {s t : Sys} {fault : Bool} {now later : ℚ} {r : Reservation} {currency : Option String} {amount : Numeral}
    {caps : Caps} (h : step s (.consume fault now later r currency amount caps) = some t)
    (hok : (consume s.store s.db fault now later r currency amount caps).1 = .ok ()) :
    ∃ k, t.history = s.history ++ [k] ∧ k.reservation = r ∧ k.charge.Of r now := by
  rcases hx : consume s.store s.db fault now later r currency amount caps with ⟨x, st, db⟩
  rw [hx] at hok
  rcases consume_cases hx with ⟨⟨e, rfl⟩, _⟩ | ⟨rfl, _, c, hconsume⟩
  · cases hok
  · simp only [step, hx] at h
    cases h
    have hrows : db.charges.rows = s.db.charges.rows ++ [c] := by rw [hconsume.charges]; rfl
    exact ⟨⟨c, r, caps, later⟩, by simp [hrows], rfl, hconsume.made⟩

/-- Everything a step can do to what the store keeps. -/
inductive Move (s : Sys) : Action → Sys → Prop
  | kept {a t} (hprepared : t.db.prepared = s.db.prepared) (hcharges : t.db.charges = s.db.charges)
      (hhistory : t.history = s.history) : Move s a t
  | prepared {a t row} (hprepare : Prepares s.db row t.db) (hhistory : t.history = s.history) : Move s a t
  | decided {a t now id} (hdecide : Decides s.db now id t.db) (hhistory : t.history = s.history) : Move s a t
  | charged {t fault now later r currency amount caps c} (hconsume : Consumes s.db now later r caps c t.db)
      (hhistory : t.history = s.history ++ [⟨c, r, caps, later⟩]) :
      Move s (.consume fault now later r currency amount caps) t

variable {s t : Sys} {a : Action}

theorem Consumes.rows {db db' : Database} {now later : ℚ} {r : Reservation} {caps : Caps} {c : Charge}
    (h : Consumes db now later r caps c db') : db'.charges.rows = db.charges.rows ++ [c] := by
  rw [h.charges]
  rfl

theorem step_move (h : step s a = some t) : Move s a t := by
  cases a with
  | prepare fault now identifier method p review ttl =>
      cases h
      rcases hx : prepare s.store s.db fault now identifier method p review ttl with ⟨x, st, db⟩
      rcases prepare_cases hx with ⟨_, rfl⟩ | ⟨row, _, hprepare⟩
      · exact .kept (by simp [stored]) (by simp [stored]) rfl
      · exact .prepared (by simpa [stored, hx] using hprepare) rfl
  | decide fault now decidedAt id choice operatorId reason =>
      cases h
      rcases hx : decide s.store s.db fault now decidedAt id choice operatorId reason with ⟨x, st, db⟩
      rcases decide_cases hx with ⟨_, rfl⟩ | ⟨_, hdecide⟩
      · exact .kept (by simp [stored]) (by simp [stored]) rfl
      · exact .decided (by simpa [stored, hx] using hdecide) rfl
  | consume fault now later r currency amount caps =>
      simp only [step] at h
      split at h
      · next hx =>
          cases h
          rcases consume_cases hx with ⟨_, rfl⟩ | ⟨hok, _⟩
          · exact .kept rfl rfl rfl
          · cases hok
      · next hx =>
          cases h
          rcases consume_cases hx with ⟨⟨_, he⟩, _⟩ | ⟨_, _, c, hconsume⟩
          · cases he
          · exact .charged hconsume (by simp [Consumes.rows hconsume])
  | confirm fault now later r =>
      cases h
      rcases hx : confirmReservation s.store s.db fault now later r with ⟨x, st, db⟩
      obtain ⟨rfl, _⟩ := confirmReservation_cases hx
      exact .kept (by simp [stored]) (by simp [stored]) rfl
  | setPaused fault readFault now environment paused operatorId reason account =>
      obtain rfl := Option.some.inj h
      rcases hx : setPaused s.store s.db fault readFault now environment paused operatorId reason account with
        ⟨x, st, db⟩
      rcases setPaused_cases hx with ⟨_, rfl⟩ | ⟨scope, _, rfl⟩
      · exact .kept (by simp [stored]) (by simp [stored]) rfl
      · exact .kept (by simp [stored, setPause_frame]) (by simp [stored, setPause_frame]) rfl
  | close | restart => cases h; exact .kept rfl rfl rfl

/-- The status changes a prepared request can go through. -/
inductive Next : Status → Status → Prop
  | approve : Next .pending .approved
  | reject : Next .pending .rejected
  | consume : Next .approved .consumed

/-- A prepared request keeps what was reviewed and changes its status along `Next`. -/
structure Advances (row row' : Prepared) : Prop where
  canonical : row'.canonical = row.canonical
  method : row'.method = row.method
  parameters : row'.parameters = row.parameters
  review : row'.review = row.review
  createdAt : row'.createdAt = row.createdAt
  expiresAt : row'.expiresAt = row.expiresAt
  status : row'.status = row.status ∨ Next row.status row'.status

theorem Advances.refl (row : Prepared) : Advances row row := ⟨rfl, rfl, rfl, rfl, rfl, rfl, .inl rfl⟩

theorem Advances.consumed {row row' : Prepared} (h : Advances row row') (hs : row.status = .consumed) :
    row'.status = .consumed := by
  cases h.status with
  | inl he => exact he.trans hs
  | inr hn => rw [hs] at hn; cases hn

/-- A step that updates one row along `Next` advances every row. -/
theorem advances_modify {T : Table Prepared.requestId} {id : RequestId} {f : Prepared → Prepared}
    {hf : ∀ r, (f r).requestId = r.requestId} {row₀ : Prepared} (hrow₀ : T.lookup id = some row₀)
    (hf₀ : Advances row₀ (f row₀)) {id' : RequestId} {row : Prepared} (h : T.lookup id' = some row) :
    ∃ row', (T.modify id f hf).lookup id' = some row' ∧ Advances row row' := by
  rw [Table.lookup_modify]
  by_cases hid : id' = id
  · subst id'
    rw [hrow₀] at h
    cases h
    exact ⟨f row₀, by simp [hrow₀], hf₀⟩
  · exact ⟨row, by simp [hid, h], .refl row⟩

theorem move_advances (h : Move s a t) {id : RequestId} {row : Prepared} (hrow : s.db.prepared.lookup id = some row) :
    ∃ row', t.db.prepared.lookup id = some row' ∧ Advances row row' := by
  cases h with
  | kept hprepared _ _ => exact ⟨row, by rw [hprepared, hrow], .refl row⟩
  | prepared hprepare _ =>
      refine ⟨row, ?_, .refl row⟩
      rw [hprepare.prepared, Table.lookup_insert]
      split
      · next hid =>
          have hfresh := hprepare.fresh
          rw [← hid, hrow] at hfresh
          cases hfresh
      · exact hrow
  | decided hdecide _ =>
      obtain ⟨row₀, status, operatorId, reason, decidedAt, hrow₀, hpending, _, hstatus, hprepared⟩ := hdecide.changed
      rw [hprepared]
      refine advances_modify hrow₀ ⟨rfl, rfl, rfl, rfl, rfl, rfl, .inr ?_⟩ hrow
      rw [hpending]
      rcases hstatus with rfl | rfl
      · exact .approve
      · exact .reject
  | charged hconsume _ =>
      rcases hconsume.prepared with ⟨_, hprepared⟩ | ⟨_, id₀, row₀, haccepts, hprepared⟩
      · exact ⟨row, by rw [hprepared, hrow], .refl row⟩
      · rw [hprepared]
        refine advances_modify haccepts.found ⟨rfl, rfl, rfl, rfl, rfl, rfl, .inr ?_⟩ hrow
        rw [haccepts.status]
        exact .consume

/-- The cap passed at the last committed positive charge of a budget. -/
def lastCap (history : List Commit) (k : BudgetKey) : Option Decimal :=
  (history.filter (fun c => c.charge.counts k ∧ 0 < c.charge.amount.value)).getLast?.bind
    (fun c => c.caps.lookup k.currency)

/-- The approval a charge was made under: of the very request that was prepared,
with the contract that was reviewed, used up, and still valid when it was checked. -/
def Authorised (db : Database) (c : Commit) : Prop :=
  ∃ id row, c.reservation.approvalId = some id ∧ db.prepared.lookup id = some row ∧ row.status = .consumed ∧
    canonicalIntent row.method row.parameters = .ok c.charge.canonical ∧
    canonicalIntent c.reservation.method c.reservation.parameters = .ok c.charge.canonical ∧
    row.review.contract = c.reservation.contract ∧ c.checked < row.expiresAt

/-- The requests whose approval the charges of a history used up. -/
def used (history : List Commit) : List (Option RequestId) :=
  (history.filter (·.reservation.requireApproval)).map (·.reservation.approvalId)

structure Sound (s : Sys) : Prop where
  budget : ∀ k cap, lastCap s.history k = some cap → total s.db.charges.rows k ≤ cap.value
  charged : s.history.map (·.charge) = s.db.charges.rows
  once : (s.db.charges.rows.map Charge.key).Nodup
  authorised : ∀ c ∈ s.history, c.reservation.requireApproval = true → Authorised s.db c
  single : (used s.history).Nodup

/-- What a prepared row says it is for is what was presented when it was prepared. -/
def Intended (db : Database) : Prop :=
  ∀ id row, db.prepared.lookup id = some row → canonicalIntent row.method row.parameters = .ok row.canonical

theorem move_intended (h : Move s a t) (hs : Intended s.db) : Intended t.db := by
  intro id row hrow
  cases hold : s.db.prepared.lookup id with
  | some old =>
      obtain ⟨row', hrow', hadvances⟩ := move_advances h hold
      rw [hrow] at hrow'
      cases hrow'
      rw [hadvances.method, hadvances.parameters, hadvances.canonical]
      exact hs id old hold
  | none =>
      -- Only preparation adds a row.
      cases h with
      | kept hprepared _ _ => rw [hprepared, hold] at hrow; cases hrow
      | prepared hprepare _ =>
          rw [hprepare.prepared, Table.lookup_insert] at hrow
          split at hrow
          · cases hrow; exact hprepare.canonical
          · rw [hold] at hrow; cases hrow
      | decided hdecide _ =>
          obtain ⟨_, _, _, _, _, _, _, _, _, hprepared⟩ := hdecide.changed
          rw [hprepared, Table.lookup_modify, hold] at hrow
          split at hrow <;> cases hrow
      | charged hconsume _ =>
          rcases hconsume.prepared with ⟨_, hprepared⟩ | ⟨_, _, _, _, hprepared⟩
          · rw [hprepared, hold] at hrow; cases hrow
          · rw [hprepared, Table.lookup_modify, hold] at hrow
            split at hrow <;> cases hrow

theorem Authorised.keep (h : Move s a t) {c : Commit} (hc : Authorised s.db c) : Authorised t.db c := by
  obtain ⟨id, row, hid, hrow, hstatus, hprepared, hpresented, hcontract, hunexpired⟩ := hc
  obtain ⟨row', hrow', hadvances⟩ := move_advances h hrow
  refine ⟨id, row', hid, hrow', hadvances.consumed hstatus, ?_, hpresented, ?_, ?_⟩
  · rw [hadvances.method, hadvances.parameters, hprepared]
  · rw [hadvances.review, hcontract]
  · rw [hadvances.expiresAt]
    exact hunexpired

theorem lastCap_append (history : List Commit) (c : Commit) (k : BudgetKey) :
    lastCap (history ++ [c]) k =
      if c.charge.counts k ∧ 0 < c.charge.amount.value then c.caps.lookup k.currency else lastCap history k := by
  unfold lastCap
  rw [List.filter_append]
  by_cases hc : c.charge.counts k ∧ 0 < c.charge.amount.value
  · rw [if_pos hc]
    simp [hc]
  · rw [if_neg hc]
    simp [hc]

/-- A charge that counts towards a budget was checked against it. -/
theorem Consumes.budget {db db' : Database} {now later : ℚ} {r : Reservation} {caps : Caps} {c : Charge}
    (h : Consumes db now later r caps c db') {k : BudgetKey} {cap : Decimal} (hk : c.counts k)
    (hpos : 0 < c.amount.value) (hcap : caps.lookup k.currency = some cap) :
    total db.charges.rows k + c.amount.value ≤ cap.value := by
  have hcaps : caps ≠ [] := by
    intro he
    rw [he] at hcap
    cases hcap
  obtain ⟨hday, henvironment, haccount, hcurrency⟩ := hk
  obtain ⟨cur, cap', hcur, hcap', hle⟩ := withinBudget_ok hcaps hpos h.budget
  rw [hcurrency] at hcur
  cases hcur
  rw [hcap] at hcap'
  cases hcap'
  rw [hday, henvironment, haccount] at hle
  exact hle

theorem move_sound (h : Move s a t) (hi : Intended s.db) (hs : Sound s) : Sound t := by
  have hkept : ∀ c ∈ s.history, c.reservation.requireApproval = true → Authorised t.db c :=
    fun c hc hreq => (hs.authorised c hc hreq).keep h
  cases h with
  | kept _ hcharges hhistory =>
      rw [← hhistory] at hkept
      exact ⟨by rw [hhistory, hcharges]; exact hs.budget, by rw [hhistory, hcharges]; exact hs.charged,
        t.db.charges.unique, hkept, by rw [hhistory]; exact hs.single⟩
  | prepared hprepare hhistory =>
      rw [← hhistory] at hkept
      exact ⟨by rw [hhistory, hprepare.charges]; exact hs.budget, by rw [hhistory, hprepare.charges]; exact hs.charged,
        t.db.charges.unique, hkept, by rw [hhistory]; exact hs.single⟩
  | decided hdecide hhistory =>
      rw [← hhistory] at hkept
      exact ⟨by rw [hhistory, hdecide.charges]; exact hs.budget, by rw [hhistory, hdecide.charges]; exact hs.charged,
        t.db.charges.unique, hkept, by rw [hhistory]; exact hs.single⟩
  | @charged _ _ now later r _ _ caps c hconsume hhistory =>
      have hrows := Consumes.rows hconsume
      refine ⟨?_, ?_, t.db.charges.unique, ?_, ?_⟩
      · intro k cap hcap
        rw [hhistory, lastCap_append] at hcap
        rw [hrows, total_append]
        by_cases hk : c.counts k
        · rw [if_pos hk]
          by_cases hpos : 0 < c.amount.value
          · rw [if_pos ⟨hk, hpos⟩] at hcap
            exact Consumes.budget hconsume hk hpos hcap
          · rw [if_neg (fun hp => hpos hp.2)] at hcap
            have hzero : c.amount.value = 0 := le_antisymm (not_lt.mp hpos) hconsume.made.nonneg
            rw [hzero, add_zero]
            exact hs.budget k cap hcap
        · rw [if_neg (fun hp => hk hp.1)] at hcap
          rw [if_neg hk, add_zero]
          exact hs.budget k cap hcap
      · rw [hhistory, hrows, List.map_append, hs.charged]
        rfl
      · intro x hx hreq
        rw [hhistory] at hx
        cases List.mem_append.mp hx with
        | inl hold => exact hkept x hold hreq
        | inr hnew =>
            cases List.mem_singleton.mp hnew
            rcases hconsume.prepared with ⟨hfree, _⟩ | ⟨_, id, row, haccepts, hprepared⟩
            · rw [hfree] at hreq; cases hreq
            · refine ⟨id, row.use now, haccepts.named, ?_, rfl, ?_, hconsume.made.canonical, haccepts.contract,
                haccepts.unexpired⟩
              · rw [hprepared, Table.lookup_modify, if_pos rfl, haccepts.found]
                rfl
              · rw [← haccepts.canonical]
                exact hi id row haccepts.found
      · rw [hhistory, used, List.filter_append, List.map_append]
        rcases hconsume.prepared with ⟨hfree, _⟩ | ⟨hreq, id, row, haccepts, _⟩
        · rw [List.filter_cons_of_neg (by simp [hfree]), List.filter_nil, List.map_nil, List.append_nil]
          exact hs.single
        · refine List.Nodup.append hs.single (by simp [hreq]) ?_
          simp only [hreq, List.filter_cons_of_pos, List.filter_nil, List.map_cons, List.map_nil,
            List.disjoint_singleton]
          -- An approval that an earlier charge used is consumed, so it is not accepted again.
          intro hmem
          obtain ⟨x, hx, hxid⟩ := List.mem_map.mp hmem
          obtain ⟨hxs, hxreq⟩ := List.mem_filter.mp hx
          obtain ⟨id', row', hid', hrow', hconsumed, _⟩ := hs.authorised x hxs hxreq
          rw [hid', haccepts.named] at hxid
          cases hxid
          rw [haccepts.found] at hrow'
          cases hrow'
          rw [haccepts.status] at hconsumed
          cases hconsumed

theorem sound_initial : Sound initial := by
  constructor
  · intro k cap h
    cases h
  · rfl
  · exact List.nodup_nil
  · intro c hc
    cases hc
  · exact List.nodup_nil

theorem run_sound {as : List Action} (h : run step initial as = some s) : Sound s ∧ Intended s.db := by
  have hpath : Path step free initial as s := free_of_run h
  exact hpath.invariant (P := fun u => Sound u ∧ Intended u.db) ⟨sound_initial, by intro id row hrow; cases hrow⟩
    (fun u a v hu hnext _ => ⟨move_sound (step_move hnext) hu.2 hu.1, move_intended (step_move hnext) hu.2⟩)

/-- The committed charges are never taken back. -/
theorem move_charges (h : Move s a t) : s.db.charges.rows <+: t.db.charges.rows := by
  cases h with
  | kept _ hcharges _ => rw [hcharges]
  | prepared hprepare _ => rw [hprepare.charges]
  | decided hdecide _ => rw [hdecide.charges]
  | charged hconsume _ => rw [Consumes.rows hconsume]; exact List.prefix_append _ _

theorem move_history (h : Move s a t) : s.history ⊆ t.history := by
  cases h with
  | kept _ _ hhistory | prepared _ hhistory | decided _ hhistory => rw [hhistory]; exact List.Subset.refl _
  | charged _ hhistory => rw [hhistory]; exact List.subset_append_left _ _

/-- What one step keeps of the budget and the approvals. -/
structure Keeps (s : Sys) (a : Action) (t : Sys) : Prop where
  charges : s.db.charges.rows <+: t.db.charges.rows
  statuses : ∀ id row, s.db.prepared.lookup id = some row →
    ∃ row', t.db.prepared.lookup id = some row' ∧ Advances row row'
  refused : ∀ fault now later r currency amount caps e, a = .consume fault now later r currency amount caps →
    (consume s.store s.db fault now later r currency amount caps).1 = .error e →
    t.db.charges = s.db.charges ∧ t.db.prepared = s.db.prepared ∧ t.history = s.history

theorem refused_kept {fault : Bool} {now later : ℚ} {r : Reservation} {currency : Option String} {amount : Numeral}
    {caps : Caps} {e : Exc} (h : step s (.consume fault now later r currency amount caps) = some t)
    (he : (consume s.store s.db fault now later r currency amount caps).1 = .error e) :
    t.db = s.db ∧ t.history = s.history := by
  rcases hx : consume s.store s.db fault now later r currency amount caps with ⟨x, st, db⟩
  rw [hx] at he
  rcases consume_cases hx with ⟨_, rfl⟩ | ⟨rfl, _⟩
  · simp only [step, hx] at h
    simp only at he
    subst he
    cases h
    exact ⟨rfl, rfl⟩
  · cases he

/-- The daily budget holds in every reachable state for the cap last passed, every
operation is charged at most once, every approval is used at most once and only for the
request, the contract and the time it was given for, and no refusal changes either. -/
theorem budget_and_approval_kept {as : List Action} (h : run step initial as = some s) :
    Sound s ∧ ∀ a t, step s a = some t → Keeps s a t := by
  refine ⟨(run_sound h).1, fun a t hstep => ⟨move_charges (step_move hstep), ?_, ?_⟩⟩
  · intro id row hrow
    exact move_advances (step_move hstep) hrow
  · intro fault now later r currency amount caps e ha he
    subst a
    obtain ⟨hdb, hhistory⟩ := refused_kept hstep he
    exact ⟨by rw [hdb], by rw [hdb], hhistory⟩

def sampleParameters : Parameters :=
  ⟨"REAL", "7", some "op-1", some "e1", none, none, [("qty", .number (.finite ⟨10, 0⟩))]⟩

def sampleContract : Contract := ⟨"NORMAL", "BUY", "10", some "12.05", none, false, [⟨"US.AAPL", "1", some "1"⟩]⟩

def sampleReservation : Reservation := ⟨"place_order", sampleParameters, some "request-1", true, some sampleContract⟩

/-- An approved order is charged. After a restart another operation presents the used
approval and is refused. -/
def sampleRun : List Action :=
  [.prepare false 100 "request-1" "place_order" sampleParameters ⟨some sampleContract, ""⟩ 300,
    .decide false 110 110 "request-1" "APPROVED" "operator" "reviewed",
    .consume false 120 120 sampleReservation (some "USD") (.finite ⟨12050, -2⟩) [("USD", ⟨500, 0⟩)],
    .restart,
    .consume false 140 140 { sampleReservation with parameters := { sampleParameters with operationId := some "op-2" } }
      (some "USD") (.finite ⟨12050, -2⟩) [("USD", ⟨500, 0⟩)]]

theorem approved_order_charged : ∃ s, run step initial sampleRun = some s ∧
    s.history.map (fun c => c.charge.operationId) = ["op-1"] ∧ Sound s ∧ ∀ a t, step s a = some t → Keeps s a t := by
  have hrun : (run step initial sampleRun).any (fun s => s.history.map (fun c => c.charge.operationId) = ["op-1"]) =
      true := by
    decide +kernel
  obtain ⟨s, hs, hcharged⟩ := (Option.any_eq_true _ _).mp hrun
  exact ⟨s, hs, of_decide_eq_true hcharged, budget_and_approval_kept hs⟩

end MoomooMcp.Budget
