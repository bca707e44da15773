import MoomooMcp.Transitions

namespace MoomooMcp.ExecutionStore

/-- What no later commit changes about a row. -/
structure Row.Descends (r r' : Row) : Prop where
  operationId : r'.operationId = r.operationId
  admissionEpoch : r'.admissionEpoch = r.admissionEpoch
  account : r'.account = r.account
  kind : r'.kind = r.kind
  canonical : r'.canonical = r.canonical
  request : r'.request = r.request
  orderTag : r'.orderTag = r.orderTag
  marker : r.marker = true → r'.marker = true
  settled : r.recoveryDisposition ≠ none → r'.recoveryDisposition ≠ none

theorem Row.Descends.refl (r : Row) : r.Descends r := ⟨rfl, rfl, rfl, rfl, rfl, rfl, rfl, id, id⟩

theorem Row.Descends.trans {r r' r'' : Row} (h : r.Descends r') (h' : r'.Descends r'') : r.Descends r'' :=
  ⟨h'.operationId.trans h.operationId, h'.admissionEpoch.trans h.admissionEpoch, h'.account.trans h.account,
    h'.kind.trans h.kind, h'.canonical.trans h.canonical, h'.request.trans h.request,
    h'.orderTag.trans h.orderTag, fun hm => h'.marker (h.marker hm), fun hs => h'.settled (h.settled hs)⟩

theorem Row.only_descends {op : OperationId} {f : Row → Row} (hf : ∀ r : Row, r.Descends (f r)) (r : Row) :
    r.Descends (Row.only op f r) := by
  unfold Row.only
  split
  · exact hf r
  · exact .refl r

theorem Row.markDispatch_descends (merged : Params) (r : Row) : r.Descends (r.markDispatch merged) :=
  ⟨rfl, rfl, rfl, rfl, rfl, rfl, rfl, fun _ => rfl, id⟩

theorem Row.outcome_descends (o : Outcome) (r : Row) : r.Descends (r.outcome o) :=
  ⟨rfl, rfl, rfl, rfl, rfl, rfl, rfl, id, id⟩

theorem Row.observe_descends (observed : List OperationId) (r : Row) : r.Descends (r.observe observed) := by
  unfold Row.observe
  split
  · exact ⟨rfl, rfl, rfl, rfl, rfl, rfl, rfl, id, id⟩
  · exact .refl r

theorem Row.concluded_descends (op : OperationId) (o : Outcome) (r : Row) : r.Descends (Row.concluded op o r) := by
  unfold Row.concluded
  have hw : r.Descends (Row.only op (Row.outcome o) r) := Row.only_descends (Row.outcome_descends o) r
  split
  · exact hw.trans (Row.observe_descends _ _)
  · exact hw

theorem Row.recordCheck_descends (rec : Recovery) (r : Row) : r.Descends (r.recordCheck rec) :=
  ⟨rfl, rfl, rfl, rfl, rfl, rfl, rfl, id, id⟩

theorem Row.resolve_descends (rec : Recovery) (resolution : Resolution) (target : State × Disposition) (r : Row) :
    r.Descends (r.resolve rec resolution target) :=
  ⟨rfl, rfl, rfl, rfl, rfl, rfl, rfl, id, fun _ => by simp [Row.resolve]⟩

theorem Row.recoverDispatch_descends (r : Row) : r.Descends r.recoverDispatch := by
  unfold Row.recoverDispatch
  split
  · exact ⟨rfl, rfl, rfl, rfl, rfl, rfl, rfl, id, id⟩
  · exact .refl r

/-- Rows are never removed and never change their identity. -/
def Journal.Extends (j j' : Journal) : Prop :=
  ∀ k r, j.row k = some r → ∃ r', j'.row k = some r' ∧ r.Descends r'

variable {j j' j'' : Journal} {epoch : Epoch} {op : OperationId}

theorem Journal.Extends.refl (j : Journal) : j.Extends j := fun _ r h => ⟨r, h, .refl r⟩

theorem Journal.Extends.trans (h : j.Extends j') (h' : j'.Extends j'') : j.Extends j'' := by
  intro k r hr
  obtain ⟨r', hr', hd⟩ := h k r hr
  obtain ⟨r'', hr'', hd'⟩ := h' k r' hr'
  exact ⟨r'', hr'', hd.trans hd'⟩

theorem extends_of_map {f : Row → Row} (hrows : ∀ k, j'.row k = (j.row k).map f)
    (hf : ∀ r : Row, r.Descends (f r)) :
    j.Extends j' := by
  intro k r hr
  exact ⟨f r, by rw [hrows, hr]; rfl, hf r⟩

theorem Admits.extends {a : Admission} (h : Admits epoch a j j') : j.Extends j' := by
  intro k r hr
  refine ⟨r, ?_, .refl r⟩
  rw [h.rows, if_neg]
  · exact hr
  · rintro rfl
    rw [h.fresh] at hr
    cases hr

theorem Marks.extends {merged : Params} (h : Marks op merged j j') : j.Extends j' :=
  extends_of_map h.rows (Row.only_descends (Row.markDispatch_descends merged))

theorem Concludes.extends {o : Outcome} (h : Concludes op o j j') : j.Extends j' :=
  extends_of_map h.rows (Row.concluded_descends op o)

theorem Blocks.row (h : Blocks op j j') (k : OperationId) : j'.row k = j.row k := by rw [h.eq]; rfl

theorem Blocks.extends (h : Blocks op j j') : j.Extends j' := by
  intro k r hr
  exact ⟨r, by rw [h.row, hr], .refl r⟩

theorem recordCheck_extends (r : Recovery) : j.Extends (j.recordCheck op r) :=
  extends_of_map (row_recordCheck r) (Row.only_descends (Row.recordCheck_descends r))

theorem resolve_extends (r : Recovery) (resolution : Resolution) (target : State × Disposition) (audit : Audit) :
    j.Extends (j.resolve op r resolution target audit) :=
  extends_of_map (row_resolve r resolution target audit)
    (Row.only_descends (Row.resolve_descends r resolution target))

theorem Records.extends {r : Recovery} (h : Records epoch op r j j') : j.Extends j' := by
  cases h with
  | check => exact recordCheck_extends r
  | resolved => exact (recordCheck_extends r).trans (resolve_extends _ _ _ _)

theorem Startup.extends (h : Startup epoch j j') : j.Extends j' :=
  extends_of_map h.rows Row.recoverDispatch_descends

theorem Reviews.row (h : Reviews j j') (k : OperationId) : j'.row k = j.row k := by rw [h.rest]; rfl

theorem Reviews.extends (h : Reviews j j') : j.Extends j' := by
  intro k r hr
  exact ⟨r, by rw [h.row, hr], .refl r⟩

theorem Admits.environment {a : Admission} (h : Admits epoch a j j') : j'.environment = j.environment := by
  rw [h.rest]

theorem Marks.environment {merged : Params} (h : Marks op merged j j') : j'.environment = j.environment := by
  rw [h.rest]

theorem Concludes.environment {o : Outcome} (h : Concludes op o j j') : j'.environment = j.environment := by
  rw [h.rest]

theorem Blocks.environment (h : Blocks op j j') : j'.environment = j.environment := by rw [h.eq]

theorem Records.environment {r : Recovery} (h : Records epoch op r j j') : j'.environment = j.environment := by
  cases h <;> rfl

theorem Startup.environment (h : Startup epoch j j') : j'.environment = j.environment := by rw [h.rest]

theorem Reviews.environment (h : Reviews j j') : j'.environment = j.environment := by rw [h.rest]

/-- An outcome write leaves another operation's row alone, up to its visibility flag. -/
theorem concluded_other {o : Outcome} {r : Row} (h : r.operationId ≠ op) :
    Row.concluded op o r = r ∨
      o.state = .acknowledged ∧ r.operationId ∈ o.observedModifications ∧ r.kind = .modify ∧
        r.state = .acknowledged ∧ Row.concluded op o r = { r with modificationObserved := true } := by
  unfold Row.concluded
  rw [Row.only_other h]
  split
  · next hack =>
      unfold Row.observe
      split
      · next hobs => exact .inr ⟨hack, hobs.1, hobs.2.1, hobs.2.2, rfl⟩
      · exact .inl rfl
  · exact .inl rfl

theorem concluded_other_state {o : Outcome} {r : Row} (h : r.operationId ≠ op) :
    (Row.concluded op o r).state = r.state := by
  rcases concluded_other h with hr | ⟨_, _, _, _, hr⟩ <;> rw [hr]

theorem concluded_recoveryDisposition (op : OperationId) (o : Outcome) (r : Row) :
    (Row.concluded op o r).recoveryDisposition = r.recoveryDisposition := by
  unfold Row.concluded Row.only
  split
  · unfold Row.observe
    split <;> split <;> rfl
  · split <;> rfl

theorem concluded_admitted {o : Outcome} {row : Row} (hother : row.operationId ≠ op) (hstate : row.state = .admitted) :
    Row.concluded op o row = row := by
  rcases concluded_other hother with h | ⟨_, _, _, hack, _⟩
  · exact h
  · rw [hstate] at hack
    cases hack

theorem mem_noted {reason : Option Reason} {reviews : Finset (OperationId × Reason)} {k : OperationId} {r : Reason} :
    (k, r) ∈ noted op reason reviews ↔ k = op ∧ reason = some r ∨ (k, r) ∈ reviews := by
  cases reason with
  | none => simp [noted]
  | some reason => simp [noted, eq_comm]

theorem Concludes.pending {o : Outcome} (h : Concludes op o j j') {k : OperationId} :
    j'.pending k ↔ k = op ∧ o.reason ≠ none ∨ j.pending k := by
  unfold Journal.pending
  rw [h.reviews]
  constructor
  · rintro ⟨r, hr⟩
    rcases mem_noted.mp hr with ⟨hk, hreason⟩ | hr
    · exact .inl ⟨hk, by simp [hreason]⟩
    · exact .inr ⟨r, hr⟩
  · rintro (⟨hk, hreason⟩ | ⟨r, hr⟩)
    · obtain ⟨r, hr⟩ := Option.ne_none_iff_exists'.mp hreason
      exact ⟨r, mem_noted.mpr (.inl ⟨hk, hr⟩)⟩
    · exact ⟨r, mem_noted.mpr (.inr hr)⟩

theorem Marks.other {merged : Params} (h : Marks op merged j j') {k : OperationId} (hk : k ≠ op) :
    j'.row k = j.row k := by
  rw [h.rows]
  cases hr : j.row k with
  | none => rfl
  | some r => rw [Option.map_some, Row.only_other (by rw [row_key hr]; exact hk)]

theorem Records.other {r : Recovery} (h : Records epoch op r j j') {k : OperationId} (hk : k ≠ op) :
    j'.row k = j.row k ∧ (j'.pending k ↔ j.pending k) := by
  have hkeep : ∀ {i : Journal} {f : Row → Row}, (i.row k).map (Row.only op f) = i.row k := by
    intro i f
    cases hr : i.row k with
    | none => rfl
    | some row => rw [Option.map_some, Row.only_other (by rw [row_key hr]; exact hk)]
  cases h with
  | check => exact ⟨by rw [row_recordCheck]; exact hkeep, .rfl⟩
  | resolved =>
      refine ⟨by rw [row_resolve, hkeep, row_recordCheck]; exact hkeep, ?_⟩
      unfold Journal.pending
      constructor
      · rintro ⟨reason, hr⟩
        exact ⟨reason, (Finset.mem_filter.mp hr).1⟩
      · rintro ⟨reason, hr⟩
        exact ⟨reason, Finset.mem_filter.mpr ⟨hr, hk⟩⟩

/-- The state a resolution may lead to. -/
theorem disposition_state {row : Row} {count : ℕ} {r : Recovery} {resolution : Resolution}
    {target : State × Disposition} (h : j.disposition row count r resolution = .ok target) :
    target.1 = .unknownOutcome ∨ target.1 = .reconciled ∨ target.1 = .terminalAccounted ∨
      target.1 = .refused ∧ row.state = .admitted ∧ row.marker = false := by
  cases resolution with
  | assumedAbsent =>
      simp only [Journal.disposition] at h
      split_ifs at h
      cases h
      exact .inl rfl
  | notDispatched =>
      simp only [Journal.disposition] at h
      split_ifs at h with hn
      cases h
      rw [not_or, not_or, not_not, not_not] at hn
      exact .inr (.inr (.inr ⟨rfl, hn.2.1, by simpa using hn.2.2⟩))
  | brokerConfirmed | currentStateAccounted | lateBrokerOrderFound =>
      simp only [Journal.disposition] at h
      split_ifs at h
      cases h
      exact .inr (.inl rfl)
  | terminalAccounted =>
      simp only [Journal.disposition] at h
      split_ifs at h
      cases h
      exact .inr (.inr (.inl rfl))

end MoomooMcp.ExecutionStore

namespace MoomooMcp.Executor

open ExecutionStore

/-- The operation a thread has admitted and not yet concluded. -/
def Phase.own : Phase → Option Row
  | .admitted _ row | .entered _ row | .prepared _ row _ | .marked _ row _ | .calling _ row _
  | .finishing _ row _ _ _ | .refusing _ row _ => some row
  | _ => none

/-- The operation whose marker a thread has committed and whose outcome it owes. -/
def Phase.flight : Phase → Option Row
  | .marked _ row _ | .calling _ row _ | .finishing _ row _ _ _ => some row
  | _ => none

/-- The program points of a recovery check. -/
def Phase.recovering : Phase → Bool
  | .checking _ _ | .correlated _ _ _ | .accounting _ _ _ | .concluding _ _ _ | .checked _ => true
  | _ => false

theorem own_of_recovering {ph : Phase} (h : ph.recovering = true) : ph.own = none := by
  cases ph <;> simp_all [Phase.recovering, Phase.own]

theorem own_of_flight {ph : Phase} {row : Row} (h : ph.flight = some row) : ph.own = some row := by
  cases ph <;> simp_all [Phase.flight, Phase.own]

theorem flight_of_recovering {ph : Phase} (h : ph.recovering = true) : ph.flight = none := by
  cases ph <;> simp_all [Phase.recovering, Phase.flight]

theorem inLock_of_flight {ph : Phase} {row : Row} (h : ph.flight = some row) : ph.inLock = true := by
  cases ph <;> simp_all [Phase.flight, Phase.inLock]

theorem own_of_resting {ph : Phase} (h : ph.resting = true) : ph.own = none := by
  cases ph <;> simp_all [Phase.resting, Phase.own]

variable {sh sh' : Shared} {ph ph' : Phase} {i : Input}

theorem evidenceFailure_recovering (env : Environment) (n : Snapshot) (started : ℚ) (orders : List BrokerOrder)
    (seen : Bool) (e : Exc) : (evidenceFailure env n started orders seen e).recovering = true := by
  unfold evidenceFailure
  split <;> rfl

theorem observe_recovering (env : Environment) (n : Snapshot) (started : ℚ)
    (orders : Except Exc (List BrokerOrder)) : (observe env n started orders).recovering = true := by
  unfold observe
  split
  · exact evidenceFailure_recovering _ _ _ _ _ _
  · split
    · rfl
    · split <;> rfl

theorem account_recovering (env : Environment) (n : Snapshot) (started : ℚ) (found : List BrokerOrder)
    (positions : Accounting.PositionQuery) : (account env n started found positions).recovering = true := by
  unfold account
  split
  · exact evidenceFailure_recovering _ _ _ _ _ _
  · split
    · exact evidenceFailure_recovering _ _ _ _ _ _
    · rfl
    · rfl

/-- A step that commits nothing keeps the operation it works on, or has none. -/
theorem Quiet.own (h : Quiet sh i ph ph') : ph'.own = ph.own ∨ ph'.own = none := by
  cases h with
  | present | reject | returned | queued | admitting | checking | notDispatched | checkReturned
  | unrecorded => exact .inr rfl
  | entered | prepared | startFailed | answered => exact .inl rfl
  | refused hph => rcases hph with rfl | rfl | ⟨p, rfl⟩ <;> exact .inl rfl
  | observed => exact .inr (own_of_recovering (observe_recovering _ _ _ _))
  | blockFailed => exact .inr (own_of_recovering (evidenceFailure_recovering _ _ _ _ _ _))
  | accounted => exact .inr (own_of_recovering (account_recovering _ _ _ _ _))

/-- A thread works on the same operation as before, on none, or on one it just admitted. -/
theorem Move.own (h : Move sh i ph sh' ph') : ph'.own = ph.own ∨ ph'.own = none ∨
    ∃ c account uuid, ph = .admitting c ∧
      Admits sh.store.epoch (admission sh.environment c account uuid) sh.journal sh'.journal ∧
      ph' = .admitted c (admission sh.environment c account uuid).row := by
  cases h with
  | quiet hquiet => exact hquiet.own.imp_right .inl
  | admitted hcommit _ _ _ hph =>
      rcases hph with ⟨rfl, _⟩ | ⟨⟨e, rfl⟩, _⟩
      · exact .inr (.inr ⟨_, _, _, rfl, hcommit, rfl⟩)
      · exact .inr (.inl rfl)
  | marked _ _ _ hph =>
      rcases hph with ⟨rfl, _⟩ | ⟨⟨e, rfl⟩, _⟩ <;> exact .inl rfl
  | started => exact .inl rfl
  | finished | refused | recorded => exact .inr (.inl rfl)
  | blocked _ _ hph =>
      rcases hph with rfl | ⟨e, rfl⟩
      · exact .inr (.inl rfl)
      · exact .inr (.inl (own_of_recovering (evidenceFailure_recovering _ _ _ _ _ _)))

theorem Move.extends (h : Move sh i ph sh' ph') : sh.journal.Extends sh'.journal := by
  cases h with
  | quiet | started => exact .refl _
  | admitted hcommit => exact hcommit.extends
  | marked hcommit => exact hcommit.extends
  | finished _ _ hstored =>
      rcases hstored with ⟨hc, _⟩ | ⟨rfl | hc, _⟩
      · exact hc.extends
      · exact .refl _
      · exact hc.extends
  | refused _ hstored =>
      rcases hstored with rfl | ⟨_, _, hc⟩
      · exact .refl _
      · exact hc.extends
  | blocked hcommit => exact hcommit.extends
  | recorded hcommit => exact hcommit.extends

theorem Move.starts (h : Move sh i ph sh' ph') : sh'.starts = sh.starts ∨
    ∃ c row p, ph = .marked c row p ∧ ph' = .calling c row p ∧ sh'.starts = sh.starts ++ [row.operationId] := by
  cases h with
  | started => exact .inr ⟨_, _, _, rfl, rfl, rfl⟩
  | quiet | admitted | marked | finished | refused | blocked | recorded => exact .inl rfl

/-- The environment of a journal is fixed. -/
theorem Move.environment (h : Move sh i ph sh' ph') : sh'.environment = sh.environment := by
  cases h with
  | quiet | started => rfl
  | admitted hcommit => exact hcommit.environment
  | marked hcommit => exact hcommit.environment
  | finished _ _ hstored =>
      rcases hstored with ⟨hc, _⟩ | ⟨rfl | hc, _⟩
      · exact hc.environment
      · rfl
      · exact hc.environment
  | refused _ hstored =>
      rcases hstored with rfl | ⟨_, _, hc⟩
      · rfl
      · exact hc.environment
  | blocked hcommit => exact hcommit.environment
  | recorded hcommit => exact hcommit.environment

theorem Move.degrades (h : Move sh i ph sh' ph') : Degrades sh.store sh'.store := by
  cases h with
  | quiet _ hst | admitted _ _ _ hst | marked _ _ hst | finished hst | refused hst | blocked _ hst
  | recorded _ hst => exact hst
  | started => exact .refl _

/-- Only the marker step of a prepared operation commits a marker. -/
theorem Move.markers (h : Move sh i ph sh' ph') : sh'.journal.markers = sh.journal.markers ∨
    ∃ c row p, ph = .prepared c row p ∧ sh.store.failed = none ∧
      Marks row.operationId p.merged sh.journal sh'.journal := by
  cases h with
  | quiet | started => exact .inl rfl
  | admitted hcommit => left; dsimp only; rw [hcommit.rest]
  | marked hcommit hopen => exact .inr ⟨_, _, _, rfl, hopen, hcommit⟩
  | finished _ _ hstored =>
      left
      rcases hstored with ⟨hc, _⟩ | ⟨rfl | hc, _⟩
      · dsimp only; rw [hc.rest]
      · rfl
      · dsimp only; rw [hc.rest]
  | refused _ hstored =>
      left
      rcases hstored with rfl | ⟨_, _, hc⟩
      · rfl
      · dsimp only; rw [hc.rest]
  | blocked hcommit => left; dsimp only; rw [hcommit.eq]
  | recorded hcommit => left; cases hcommit <;> rfl

/-- A thread owes an outcome only if it owed it before or just wrote the marker. -/
theorem Move.flight_of {row : Row} (h : Move sh i ph sh' ph') (hflight : ph'.flight = some row) :
    ph.flight = some row ∨ sh'.journal.markers ≠ sh.journal.markers := by
  cases h with
  | quiet hquiet =>
      left
      cases hquiet with
      | startFailed | answered => exact hflight
      | observed =>
          rw [flight_of_recovering (observe_recovering _ _ _ _)] at hflight
          cases hflight
      | blockFailed =>
          rw [flight_of_recovering (evidenceFailure_recovering _ _ _ _ _ _)] at hflight
          cases hflight
      | accounted =>
          rw [flight_of_recovering (account_recovering _ _ _ _ _)] at hflight
          cases hflight
      | _ => cases hflight
  | started => exact .inl hflight
  | marked hcommit =>
      right
      dsimp only
      rw [hcommit.rest]
      simp
  | admitted _ _ _ _ hph => rcases hph with ⟨rfl, _⟩ | ⟨⟨e, rfl⟩, _⟩ <;> cases hflight
  | blocked _ _ hph =>
      rcases hph with rfl | ⟨e, rfl⟩
      · cases hflight
      · rw [flight_of_recovering (evidenceFailure_recovering _ _ _ _ _ _)] at hflight
        cases hflight
  | finished | refused | recorded => cases hflight

/-- What the steps of a thread outside the execution lock leave alone. -/
structure Undisturbed (sh sh' : Shared) : Prop where
  starts : sh'.starts = sh.starts
  late : sh'.late = sh.late
  reviews : sh'.journal.reviews = sh.journal.reviews
  checks : sh'.journal.checks = sh.journal.checks
  audits : sh'.journal.audits = sh.journal.audits
  markers : sh'.journal.markers = sh.journal.markers
  environment : sh'.environment = sh.environment
  failed : sh.store.failed ≠ none → sh'.store.failed ≠ none
  rows : ∀ k r, sh.journal.row k = some r → sh'.journal.row k = some r
  fresh : ∀ k r, sh'.journal.row k = some r → sh.journal.row k = some r ∨ r.state = .admitted ∧ r.marker = false ∧
    sh.journal.row k = none

theorem Move.outside (h : Move sh i ph sh' ph') (hph : ph.inLock = false) : Undisturbed sh sh' := by
  have henv := h.environment
  have hfailed := h.degrades.failed
  cases h with
  | quiet => exact ⟨rfl, rfl, rfl, rfl, rfl, rfl, henv, hfailed, fun _ _ hr => hr, fun _ _ hr => .inl hr⟩
  | @admitted c account uuid _ _ st j _ hcommit =>
      have hrest := hcommit.rest
      refine ⟨rfl, rfl, by rw [hrest], by rw [hrest], by rw [hrest], by rw [hrest], henv, hfailed, ?_, ?_⟩
      · intro k r hr
        have hk : k ≠ (admission sh.environment c account uuid).operationId := by
          rintro rfl
          rw [hcommit.fresh] at hr
          cases hr
        exact (hcommit.rows k).trans ((if_neg hk).trans hr)
      · intro k r hr
        dsimp only at hr
        rw [hcommit.rows] at hr
        split at hr
        · next hk => cases hr; exact .inr ⟨rfl, rfl, by rw [hk]; exact hcommit.fresh⟩
        · exact .inl hr
  | marked | started | finished | refused | blocked | recorded => cases hph

theorem Undisturbed.pending {sh sh' : Shared} (h : Undisturbed sh sh') (op : OperationId) :
    sh'.journal.pending op ↔ sh.journal.pending op := by
  unfold Journal.pending
  rw [h.reviews]

theorem Undisturbed.recoveryChecks {sh sh' : Shared} (h : Undisturbed sh sh') (op : OperationId) :
    sh'.journal.recoveryChecks op = sh.journal.recoveryChecks op := by
  unfold Journal.recoveryChecks
  rw [h.checks]

end MoomooMcp.Executor
