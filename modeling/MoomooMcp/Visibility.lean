import MoomooMcp.Blocking
import MoomooMcp.Guards
import MoomooMcp.Rows

namespace MoomooMcp.Preparation

open ExecutionStore

variable {j j' : Journal} {row r : Row} {account : Account} {id : Option OrderId}

theorem mem_earlier : r ∈ earlier j account id ↔ ∃ order, id = some order ∧ j.row r.operationId = some r ∧
    r.account = account ∧ r.kind = .modify ∧ r.state = .acknowledged ∧ r.modificationObserved = false ∧
    r.request.orderId.map OrderId.value = some order.value := by
  cases id with
  | none => simp [earlier]
  | some order => simp [earlier, mem_unobservedModifications]

/-- What a modification was prepared from stays right while no acknowledged row changes. -/
theorem Sourced.transfer {c : Request} {p : Prepared} {order : BrokerOrder} (h : Sourced j row c p order)
    (henv : j'.environment = j.environment)
    (hsame : ∀ r : Row, r.state = .acknowledged → (j'.row r.operationId = some r ↔ j.row r.operationId = some r)) :
    Sourced j' row c p order := by
  have hmem : ∀ r, r ∈ earlier j' row.account c.params.orderId ↔ r ∈ earlier j row.account c.params.orderId := by
    intro r
    rw [mem_earlier, mem_earlier]
    constructor
    · rintro ⟨id, hid, hr, ha, hk, hs, hrest⟩
      exact ⟨id, hid, (hsame r hs).mp hr, ha, hk, hs, hrest⟩
    · rintro ⟨id, hid, hr, ha, hk, hs, hrest⟩
      exact ⟨id, hid, (hsame r hs).mpr hr, ha, hk, hs, hrest⟩
  refine ⟨h.reading, h.target, h.qty, h.price, h.whole, fun he => h.priced (henv.symm.trans he),
    fun r hr => h.shown r ((hmem r).mp hr), fun k => ?_⟩
  simp only [h.observed, hmem]

end MoomooMcp.Preparation

namespace MoomooMcp.Executor

open ExecutionStore Preparation

/-- What a preparation went by, as long as its outcome is not stored. -/
def Source (env : Environment) (j : Journal) (c : Request) (row : Row) (p : Prepared) : Prop :=
  if merges env c then ∃ order, Sourced j row c p order else p.observed = []

def Sourcing (sh : Shared) : Phase → Prop
  | .prepared c row p | .marked c row p | .calling c row p | .finishing c row p _ _ =>
      Source sh.environment sh.journal c row p
  | _ => True

variable {sh sh' : Shared} {ph ph' : Phase} {i : Input} {c : Request} {row : Row} {p : Prepared}

theorem Source.transfer {env : Environment} {j j' : Journal} (h : Source env j c row p)
    (henv : j'.environment = j.environment)
    (hsame : ∀ r : Row, r.state = .acknowledged → (j'.row r.operationId = some r ↔ j.row r.operationId = some r)) :
    Source env j' c row p := by
  unfold Source at h ⊢
  split_ifs at h ⊢
  · obtain ⟨order, hsourced⟩ := h
    exact ⟨order, hsourced.transfer henv hsame⟩
  · exact h

theorem sourcing_outside (h : ph.inLock = false) : Sourcing sh ph := by
  cases ph with
  | prepared | marked | calling | finishing => cases h
  | _ => trivial

theorem sourcing_recovering (h : ph.recovering = true) : Sourcing sh ph := by
  cases ph with
  | prepared | marked | calling | finishing => cases h
  | _ => trivial

theorem Sourcing.undisturbed (h : Sourcing sh ph) (hu : Undisturbed sh sh') : Sourcing sh' ph := by
  have hsame : ∀ r : Row, r.state = .acknowledged →
      (sh'.journal.row r.operationId = some r ↔ sh.journal.row r.operationId = some r) := by
    intro r hr
    refine ⟨fun hnew => ?_, fun hold => hu.rows _ _ hold⟩
    rcases hu.fresh _ _ hnew with hold | ⟨hadmitted, _⟩
    · exact hold
    · rw [hr] at hadmitted
      cases hadmitted
  cases ph with
  | prepared c row p | marked c row p | calling c row p | finishing c row p sdk o =>
      have hsource : Source sh'.environment sh.journal c row p := by
        rw [hu.environment]
        exact h
      exact hsource.transfer hu.environment hsame
  | _ => trivial

/-- A marker changes no acknowledged row. -/
theorem marks_acknowledged {op : OperationId} {merged : Params} {j j' : Journal} (hc : Marks op merged j j')
    (r : Row) (hr : r.state = .acknowledged) : j'.row r.operationId = some r ↔ j.row r.operationId = some r := by
  obtain ⟨w, hw, hwait⟩ := hc.waiting
  by_cases hk : r.operationId = op
  · rw [hc.rows, hk, hw, Option.map_some, Row.only_self (row_key hw)]
    constructor
    · intro h
      cases h
      cases hr
    · intro h
      cases h
      rw [hwait] at hr
      cases hr
  · rw [hc.other hk]

theorem Move.sourcing (h : Move sh i ph sh' ph') (hs : Sourcing sh ph) : Sourcing sh' ph' := by
  have henv := h.environment
  cases h with
  | quiet hquiet =>
      cases hquiet with
      | prepared hprepare => exact prepare_ok hprepare
      | startFailed | answered => exact hs
      | observed => exact sourcing_recovering (observe_recovering _ _ _ _)
      | blockFailed => exact sourcing_recovering (evidenceFailure_recovering _ _ _ _ _ _)
      | accounted => exact sourcing_recovering (account_recovering _ _ _ _ _)
      | _ => trivial
  | started => exact hs
  | marked hcommit _ _ hph =>
      rcases hph with ⟨rfl, _⟩ | ⟨⟨e, rfl⟩, _⟩
      · have hsource : Source _ sh.journal _ _ _ := hs
        rw [← henv] at hsource
        exact hsource.transfer hcommit.environment (fun r hr => marks_acknowledged hcommit r hr)
      · trivial
  | admitted _ _ _ _ hph => rcases hph with ⟨rfl, _⟩ | ⟨⟨e, rfl⟩, _⟩ <;> trivial
  | blocked _ _ hph =>
      rcases hph with rfl | ⟨e, rfl⟩
      · trivial
      · exact sourcing_recovering (evidenceFailure_recovering _ _ _ _ _ _)
  | finished | refused | recorded => trivial

end MoomooMcp.Executor

namespace MoomooMcp.System

open ExecutionStore Executor Preparation Machine

variable {env : Environment} {ok : Sys → Action → Sys → Prop} {s s' : Sys} {a : Action} {p : Process} {t : Tid}
  {c : Request} {row : Row} {q : Prepared} {sdk : Option SdkAnswer} {o : Outcome}

theorem reachable_sourcing (h : Reachable env ok s) (hp : s.process = some p) (t : Tid) :
    Sourcing (shared s p) (p.threads t) :=
  lock_rule (Q := fun s p ph => Sourcing (shared s p) ph) (fun _ _ _ hout => sourcing_outside hout)
    (fun _ _ _ _ _ _ _ _ _ hu hq => hq.undisturbed hu) (fun _ _ _ _ _ _ _ hmoved _ hq => hmoved.move.sourcing hq)
    h hp t

/-- The modifications an acknowledgement retires are those its preparation observed. -/
theorem observed_earlier (h : Reachable env ok s) (hp : s.process = some p)
    (hph : p.threads t = .finishing c row q sdk o) {k : OperationId} (hk : k ∈ o.observedModifications)
    (hstate : o.state = .acknowledged) : merges env c = true ∧ ∃ order, Sourced s.journal row c q order ∧
      ∃ r ∈ earlier s.journal row.account c.params.orderId, r.operationId = k := by
  have hthread := ((reachable_inv h).process p hp).threads t
  have hsource := reachable_sourcing h hp t
  rw [hph] at hthread hsource
  obtain ⟨_, _, _, _, hanswered⟩ := hthread
  have hobserved : o.observedModifications = q.observed := by
    rcases hanswered.cases with ⟨hunknown, _⟩ | ⟨_, _, _, hsame, _⟩
    · rw [hstate] at hunknown
      cases hunknown
    · exact hsame
  rw [hobserved] at hk
  have henv : (shared s p).environment = env := reachable_environment h
  have hsource : Source (shared s p).environment s.journal c row q := hsource
  rw [henv] at hsource
  unfold Source at hsource
  split_ifs at hsource with hm
  · obtain ⟨order, hsourced⟩ := hsource
    exact ⟨hm, order, hsourced, (hsourced.observed k).mp hk⟩
  · rw [hsource] at hk
    cases hk

/-- An acknowledgement does not retire its own guard. -/
theorem concluded_own_flag (h : Reachable env ok s) (hp : s.process = some p)
    (hph : p.threads t = .finishing c row q sdk o) :
    (Row.concluded row.operationId o (row.markDispatch q.merged)).modificationObserved =
      row.modificationObserved := by
  have hthread := ((reachable_inv h).process p hp).threads t
  rw [hph] at hthread
  obtain ⟨_, hflight, _⟩ := hthread
  have hflight : s.journal.row row.operationId = some (row.markDispatch q.merged) := hflight
  have hkey : (row.markDispatch q.merged).operationId = row.operationId := rfl
  unfold Row.concluded
  rw [Row.only_self hkey]
  split
  · next hstate =>
      have hnot : row.operationId ∉ o.observedModifications := by
        intro hk
        obtain ⟨_, _, _, r, hr, hop⟩ := observed_earlier h hp hph hk hstate
        obtain ⟨_, _, hrow, _, _, hack, _⟩ := mem_earlier.mp hr
        rw [hop, hflight] at hrow
        cases hrow
        cases hack
      unfold Row.observe
      rw [if_neg (fun hobs => hnot hobs.1)]
      rfl
  · rfl

/-- A dispatched modification carries the caller's own fields, and for the rest
those of a reading that showed every earlier unobserved modification. -/
theorem dispatch_sourced (h : Reachable env ok s) (hstep : Transition s a s')
    (hnew : s'.journal.markers ≠ s.journal.markers) : ∃ p t c row q, s.process = some p ∧
      p.threads t = .prepared c row q ∧ s'.journal.markers = s.journal.markers ++ [row.operationId] ∧
      row.kind = c.kind ∧ row.request = c.params ∧
      s'.journal.row row.operationId = some (row.markDispatch q.merged) ∧
      (merges env c = true → ∃ order, Sourced s.journal row c q order) := by
  cases hstep with
  | @thread p t i sh ph _ _ hp _ hmove =>
      rcases hmove.markers with hsame | ⟨c, row, q, hph, _, hcommit⟩
      · exact absurd hsame hnew
      · have hthread := ((reachable_inv h).process p hp).threads t
        have hsource := reachable_sourcing h hp t
        rw [hph] at hthread hsource
        obtain ⟨hadmitted, hfresh, _⟩ := hthread
        have henv : (shared s p).environment = env := reachable_environment h
        refine ⟨p, t, c, row, q, hp, hph, by dsimp only; rw [hcommit.rest]; rfl, hadmitted.kind,
          hadmitted.request, ?_, fun hm => ?_⟩
        · exact (hcommit.rows _).trans (by rw [hfresh.stored, Option.map_some, Row.only_self rfl])
        · have hsource : Source (shared s p).environment s.journal c row q := hsource
          rw [henv] at hsource
          unfold Source at hsource
          rw [if_pos hm] at hsource
          exact hsource
  | crash | unopened => exact absurd rfl hnew
  | unreviewed _ hstartup => exact absurd (by dsimp only; rw [hstartup.rest]) hnew
  | reviewed _ hstartup hreview => exact absurd (by dsimp only; rw [hreview.rest, hstartup.rest]) hnew
  | opened _ hstartup hreview => exact absurd (by dsimp only; rw [hreview.rest, hstartup.rest]) hnew

/-- No modification is merged over a stale order. Whenever a modification is
dispatched that takes omitted fields from a reading, the reading showed quantity
and price of every earlier acknowledged and unobserved modification of the order;
and such a modification becomes observed only by the commit that acknowledges a
later one prepared from such a reading, or by its own recovery. -/
theorem modification_never_stale (h : Reachable env free s) :
    (∀ a s', step s a = some s' → s'.journal.markers ≠ s.journal.markers →
      ∃ p t c row q, s.process = some p ∧ p.threads t = .prepared c row q ∧
        s'.journal.markers = s.journal.markers ++ [row.operationId] ∧ row.kind = c.kind ∧
        row.request = c.params ∧ s'.journal.row row.operationId = some (row.markDispatch q.merged) ∧
        (merges env c = true → ∃ order, Sourced s.journal row c q order)) ∧
    (∀ a s' k r r', step s a = some s' → s.journal.row k = some r → s'.journal.row k = some r' →
      r.modificationObserved = false → r'.modificationObserved = true →
      (∃ p t c row q sdk o order fault fault', s.process = some p ∧ a = .thread t (.finish fault fault') ∧
        p.threads t = .finishing c row q sdk o ∧ merges env c = true ∧ Sourced s.journal row c q order ∧
        r ∈ earlier s.journal row.account c.params.orderId ∧
        (∃ r'', s'.journal.row row.operationId = some r'' ∧ r''.state = .acknowledged) ∧
        ∃ past, s.journal.markers = past ++ [row.operationId] ∧ k ∈ past) ∨
      ∃ audit, s'.journal.audits = s.journal.audits ++ [audit] ∧ audit.operationId = k) := by
  refine ⟨fun a s' hstep hnew => dispatch_sourced h (step_transition hstep) hnew, ?_⟩
  intro a s' k r r' hstep hr hr' hunobserved hobserved
  have hs := reachable_inv h
  rcases row_step hs (step_transition hstep) hr' with ⟨r₀, hr₀, hrow⟩ | ⟨hnone, _⟩
  · rw [hr] at hr₀
    cases hr₀
    have hsame : ∀ {b : Bool}, r'.modificationObserved = b → b = r.modificationObserved → False := by
      intro b hb hr
      rw [hb, hr, hunobserved] at hobserved
      cases hobserved
    cases hrow with
    | kept | marked | refused | checked => exact absurd rfl (fun hrefl => hsame rfl hrefl)
    | concluded hp hph => exact absurd (concluded_own_flag h hp hph) (fun hflag => hsame rfl hflag)
    | @observed p t c row q sdk o fault fault' _ hp hph hother hstate hmem _ hack hcommit =>
        obtain ⟨hm, order, hsourced, r₁, hr₁, hop⟩ := observed_earlier h hp hph hmem hstate
        obtain ⟨_, _, hrow₁, _⟩ := mem_earlier.mp hr₁
        have hr₁same : r₁ = r := by
          rw [hop, row_key hr, hr] at hrow₁
          exact (Option.some.inj hrow₁).symm
        subst hr₁same
        obtain ⟨past, hpast⟩ := flight_last h hp (show (p.threads t).flight = some row by rw [hph]; rfl)
        have hlogged := marker_logged h hr (acknowledged_marker h hr hack)
        rw [hpast, List.mem_append, List.mem_singleton] at hlogged
        refine .inl ⟨p, t, c, row, q, sdk, o, order, fault, fault', hp, rfl, hph, hm, hsourced, hr₁, ?_, past, hpast, ?_⟩
        · have hthread := (hs.process p hp).threads t
          rw [hph] at hthread
          have hflight : s.journal.row row.operationId = some (row.markDispatch q.merged) := hthread.2.1
          have hkey : (row.markDispatch q.merged).operationId = row.operationId := rfl
          exact ⟨_, by rw [hcommit.rows, hflight]; rfl, (concluded_state hkey).trans hstate⟩
        · exact hlogged.resolve_right (fun he => hother ((row_key hr).trans he))
    | resolved hp hph _ _ _ haudits => exact .inr ⟨_, haudits, row_key hr⟩
    | recovered =>
        refine absurd ?_ (fun hflag => hsame rfl hflag)
        unfold Row.recoverDispatch
        split <;> rfl
  · rw [hr] at hnone
    cases hnone

def sampleOrder (qty price : ℚ) : BrokerOrder where
  orderId := some (.decimal [4, 2])
  orderStatus := some .submitted
  code := some ⟨some "US", "AAPL"⟩
  trdSide := some .buy
  orderType := some .normal
  qty := some qty
  price := some price
  dealtQty := some 0
  dealtAvgPrice := some 0
  timeInForce := some .day
  session := some .rth

def sampleModification (op : OperationId) (modifyOrderOp : Option ModifyOp) (qty price : Option ℚ) : Request where
  operationId := op
  epoch := "epoch-1"
  kind := .modify
  params := { orderId := some (.decimal [4, 2]), modifyOrderOp := modifyOrderOp, qty := qty, price := price }

/-- A modification by thread 0, prepared from a reading, up to its marker. -/
def modificationStart (c : Request) (reading : BrokerOrder) : List Action :=
  [.thread 0 (.present c none),
    .thread 0 (.lookup none .none),
    .thread 0 (.preflight none .none .none),
    .thread 0 (.admitOperation (.ok 7) c.operationId none .none),
    .thread 0 (.enter .none),
    .thread 0 (.prepare (.ok [reading]) .none {})]

def markStep : Action := .thread 0 (.mark none .none none .none none)

def modificationSteps (c : Request) (reading : BrokerOrder) (answer : SdkAnswer) : List Action :=
  modificationStart c reading ++
    [markStep, .thread 0 (.start none none), .thread 0 (.answer answer none), .thread 0 (.finish .none .none)]

def sampleAcknowledgement : SdkAnswer := .ok (some (.decimal [4, 2])) (.ok ⟨some (.decimal [4, 2]), none⟩) none

/-- A second modification about to be dispatched, after an acknowledged first one. -/
def secondModification : List Action :=
  [.reopen "epoch-1" .none .none] ++
    modificationSteps (sampleModification "first" (some .normal) (some 20) none) (sampleOrder 10 100)
      sampleAcknowledgement ++
    modificationStart (sampleModification "second" (some .normal) none (some 90)) (sampleOrder 20 100)

theorem second_modification_sourced : ∃ s s', run step (initial .simulate) secondModification = some s ∧
    step s markStep = some s' ∧ ∃ p t c row q, s.process = some p ∧ p.threads t = .prepared c row q ∧
      s'.journal.markers = s.journal.markers ++ [row.operationId] ∧ row.kind = c.kind ∧ row.request = c.params ∧
      s'.journal.row row.operationId = some (row.markDispatch q.merged) ∧
      (merges .simulate c = true → ∃ order, Sourced s.journal row c q order) := by
  refine ⟨_, _, rfl, rfl, ?_⟩
  have hstale := (@modification_never_stale .simulate _ (reachable_of_run secondModification rfl)).1
  exact hstale markStep _ rfl (by decide)

end MoomooMcp.System
