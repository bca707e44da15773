import MoomooMcp.Commits
import MoomooMcp.Executor

namespace MoomooMcp.Executor

open ExecutionStore Preparation

/-- The row a check starts from. -/
structure Due (sh : Shared) (op : OperationId) (due : ℚ) (n : Snapshot) : Prop where
  row : sh.journal.row op = some n.row
  checks : n.recoveryChecks = sh.journal.recoveryChecks op
  due : n.row.nextRecoveryAt ≤ due
  review : sh.journal.pending op ∨ n.row.recoveryDisposition = some .assumedAbsent
  settled : sh.late = []

/-- A result that tells the outcome, and its disposition where that is durable. -/
structure Reports (op : OperationId) (o : Outcome) (result : Result) : Prop where
  operationId : result.operationId = op
  state : result.state = o.state
  disposition : ∀ d, result.disposition = some d → d = o.disposition

/-- The steps that commit nothing. -/
inductive Quiet (sh : Shared) : Input → Phase → Phase → Prop
  | present {ph c} (hrest : ph.resting = true) : Quiet sh (.present c none) ph (.validated c)
  | reject {ph c e e'} (hrest : ph.resting = true) : Quiet sh (.present c (some e)) ph (.done c none (.error e'))
  | returned {ph c i r} (hph : ph = .validated c ∨ ph = .queued c ∨ ph = .admitting c) :
      Quiet sh i ph (.done c none r)
  | queued {c access fault} (hrow : sh.journal.row c.operationId = none) :
      Quiet sh (.lookup access fault) (.validated c) (.queued c)
  | admitting {c access fault fault'} (hepoch : c.epoch = sh.store.epoch) :
      Quiet sh (.preflight access fault fault') (.queued c) (.admitting c)
  | entered {c row fault st} (hready : ready sh fault = (.ok (), st)) :
      Quiet sh (.enter fault) (.admitted c row) (.entered c row)
  | prepared {c row orders fault a p st} (hprepare : Preparation.prepare sh.store sh.journal c row a orders fault = (.ok p, st)) :
      Quiet sh (.prepare orders fault a) (.entered c row) (.prepared c row p)
  | refused {ph c row i e} (hph : ph = .admitted c row ∨ ph = .entered c row ∨ ∃ p, ph = .prepared c row p) :
      Quiet sh i ph (.refusing c row e)
  | startFailed {c row p message relock} : Quiet sh (.start (some message) relock) (.marked c row p)
      (.finishing c row p none (sdkOutcome sh.environment c p (.raised message) relock))
  | answered {c row p a relock} : Quiet sh (.answer a relock) (.calling c row p)
      (.finishing c row p (some a) (sdkOutcome sh.environment c p a relock))
  | checking {ph op fault fault' due started n} (hrest : ph.resting = true) (hdue : Due sh op due n) :
      Quiet sh (.check op fault fault' due started) ph (.checking n started)
  | notDispatched {ph op fault fault' due started n} (hrest : ph.resting = true) (hdue : Due sh op due n)
      (henv : sh.environment = .real) (hstate : n.row.state = .admitted) (hmarker : n.row.marker = false) :
      Quiet sh (.check op fault fault' due started) ph (.concluding n started notDispatchedConclusion)
  | checkReturned {ph op fault fault' due started r} (hrest : ph.resting = true) :
      Quiet sh (.check op fault fault' due started) ph (.checked r)
  | observed {n started orders} : Quiet sh (.observe orders) (.checking n started)
      (observe sh.environment n started orders)
  | blockFailed {n started found fault e} : Quiet sh (.block fault) (.correlated n started found)
      (evidenceFailure sh.environment n started [] true e)
  | accounted {n started found positions} : Quiet sh (.account positions) (.accounting n started found)
      (account sh.environment n started found positions)
  | unrecorded {n started k completed stopped fault fault' r} :
      Quiet sh (.record completed stopped fault fault') (.concluding n started k) (.checked r)

/-- Everything a step of a thread can do. A commit whose success the caller did
not learn of leaves the store condemned. -/
inductive Move (sh : Shared) : Input → Phase → Shared → Phase → Prop
  | quiet {i ph ph' st} (hquiet : Quiet sh i ph ph') (hst : Degrades sh.store st) :
      Move sh i ph { sh with store := st } ph'
  | admitted {c account uuid access fault st j ph'}
      (hcommit : Admits sh.store.epoch (admission sh.environment c account uuid) sh.journal j)
      (hreviewed : sh.store.reviewed = true) (hopen : sh.store.failed = none) (hst : Degrades sh.store st)
      (hph : ph' = .admitted c (admission sh.environment c account uuid).row ∧ st = sh.store ∨
        (∃ e, ph' = .done c none (.error e)) ∧ st.failed ≠ none) :
      Move sh (.admitOperation (.ok account) uuid access fault) (.admitting c)
        { sh with store := st, journal := j } ph'
  | marked {c row p controls readyFault confirm fault relock st j ph'}
      (hcommit : Marks row.operationId p.merged sh.journal j) (hopen : sh.store.failed = none)
      (hst : Degrades sh.store st)
      (hph : ph' = .marked c row p ∧ st = sh.store ∨ (∃ e, ph' = .refusing c row e) ∧ st.failed ≠ none) :
      Move sh (.mark controls readyFault confirm fault relock) (.prepared c row p)
        { sh with store := st, journal := j } ph'
  | started {c row p relock} : Move sh (.start none relock) (.marked c row p)
      { sh with starts := sh.starts ++ [row.operationId] } (.calling c row p)
  | finished {c row p sdk o fault fault' st j late result} (hst : Degrades sh.store st)
      (hresult : Reports row.operationId o result)
      (hstored : Concludes row.operationId o sh.journal j ∧ late = sh.late ∨
        (j = sh.journal ∨ Concludes row.operationId o sh.journal j) ∧ late = ⟨row, result⟩ :: sh.late) :
      Move sh (.finish fault fault') (.finishing c row p sdk o) ⟨j, st, late, sh.starts⟩ (.done c sdk (.ok result))
  | refused {c row e fault fault' st j late e'} (hst : Degrades sh.store st)
      (hstored : j = sh.journal ∨
        sh.store.failed = none ∧ ∃ message, Concludes row.operationId (refusedOutcome message) sh.journal j)
      (hlate : late = sh.late ∨ ∃ result, late = ⟨row, result⟩ :: sh.late ∧ result.operationId = row.operationId) :
      Move sh (.refuse fault fault') (.refusing c row e) ⟨j, st, late, sh.starts⟩ (.done c none (.error e'))
  | blocked {n started found fault st j ph'} (hcommit : Blocks n.row.operationId sh.journal j)
      (hst : Degrades sh.store st)
      (hph : ph' = .accounting n started found ∨
        ∃ e, ph' = evidenceFailure sh.environment n started [] true e) :
      Move sh (.block fault) (.correlated n started found) { sh with store := st, journal := j } ph'
  | recorded {n started k completed fault fault' st j r}
      (hcommit : Records sh.store.epoch n.row.operationId (recovery n started completed k) sh.journal j)
      (hst : Degrades sh.store st) :
      Move sh (.record completed false fault fault') (.concluding n started k)
        { sh with store := st, journal := j } (.checked r)

variable {sh sh' : Shared} {ph ph' : Phase} {st : Store}

theorem ready_ok {fault : Fault} (h : ready sh fault = (.ok (), st)) :
    st = sh.store ∧ sh.late = [] ∧ sh.store.failed = none ∧ sh.store.reviewed = true ∧ sh.journal.reviews = ∅ := by
  unfold ready at h
  split at h
  · cases h
  · next hl =>
      obtain ⟨hs, hf, hr, hj⟩ := requireReady_ok h
      exact ⟨hs, hl, hf, hr, hj⟩

theorem ready_degrades {fault : Fault} {r : Except Exc Unit} (h : ready sh fault = (r, st)) :
    Degrades sh.store st := by
  unfold ready at h
  split at h
  · cases h; exact .refl _
  · exact requireReady_degrades h

theorem identity_degrades {c : Request} {fault : Fault} {r : Except Exc (Option Row)}
    (h : identity sh c fault = (r, st)) : Degrades sh.store st := by
  unfold identity at h
  split at h
  · cases h; exact .refl _
  · exact (read_cases h).1

theorem identity_none {c : Request} {fault : Fault} (h : identity sh c fault = (.ok none, st)) :
    sh.journal.row c.operationId = none ∧ st = sh.store := by
  unfold identity at h
  split at h
  · cases h
  · obtain ⟨hv, hs, _⟩ := read_ok h
    exact ⟨hv.symm, hs⟩

theorem admittedMeanwhile_degrades {c : Request} {fault : Fault} {r : Except Exc (Option Row)}
    (h : admittedMeanwhile sh c fault = (r, st)) : Degrades sh.store st := by
  unfold admittedMeanwhile at h
  split at h
  · exact (read_cases h).1
  · exact identity_degrades h

theorem prepare_degrades {j : Journal} {c : Request} {row : Row} {a : Assessment}
    {orders : Except Exc (List BrokerOrder)} {fault : Fault} {r : Except Exc Prepared} {st' : Store}
    (h : Preparation.prepare st j c row a orders fault = (r, st')) : Degrades st st' := by
  unfold Preparation.prepare at h
  split at h
  · split at h
    · cases h; exact .refl _
    · cases h; exact .refl _
    · split at h
      · next hr => cases h; exact (read_cases hr).1
      · next hr => cases h; exact (read_cases hr).1
  · cases h; exact .refl _

theorem lookup_move {c : Request} {access : Option Exc} {fault : Fault}
    (h : lookup sh c access fault = (st, ph')) :
    Move sh (.lookup access fault) (.validated c) { sh with store := st } ph' := by
  unfold lookup at h
  split at h
  · next hi => cases h; exact .quiet (.returned (.inl rfl)) (identity_degrades hi)
  · next hi => cases h; exact .quiet (.returned (.inl rfl)) (identity_degrades hi)
  · next hi => cases h; exact .quiet (.queued (identity_none hi).1) (identity_degrades hi)

theorem preflight_move {c : Request} {access : Option Exc} {fault fault' : Fault}
    (h : preflight sh c access fault fault' = (st, ph')) :
    Move sh (.preflight access fault fault') (.queued c) { sh with store := st } ph' := by
  unfold preflight at h
  split at h
  · next hi => cases h; exact .quiet (.returned (.inr (.inl rfl))) (admittedMeanwhile_degrades hi)
  · next hi => cases h; exact .quiet (.returned (.inr (.inl rfl))) (admittedMeanwhile_degrades hi)
  · next hi =>
      have hst := admittedMeanwhile_degrades hi
      split at h
      · cases h; exact .quiet (.returned (.inr (.inl rfl))) hst
      · next hepoch =>
          rw [ne_eq, not_not, hst.epoch] at hepoch
          split at h
          · next hr => cases h; exact .quiet (.returned (.inr (.inl rfl))) (hst.trans (ready_degrades hr))
          · next hr => cases h; exact .quiet (.admitting hepoch) (hst.trans (ready_degrades hr))

theorem admitOperation_move {c : Request} {account : Except Exc Account} {uuid : Tag} {access : Option Exc}
    {fault : Fault} (h : admitOperation sh c account uuid access fault = (sh', ph')) :
    Move sh (.admitOperation account uuid access fault) (.admitting c) sh' ph' := by
  unfold admitOperation at h
  split at h
  · cases h; exact .quiet (.returned (.inr (.inr rfl))) (.refl _)
  · split at h
    · next e st j ht =>
        cases h
        obtain ⟨hst, ⟨rfl, _⟩ | ⟨⟨row, created⟩, hb, hopen, ⟨hr, _⟩ | ⟨_, hfailed⟩⟩⟩ := transact_cases ht
        · exact .quiet (.returned (.inr (.inr rfl))) hst
        · cases hr
        · rcases admitOperation_ok hb with ⟨_, rfl, _⟩ | ⟨_, _, hreviewed, hcommit⟩
          · exact .quiet (.returned (.inr (.inr rfl))) hst
          · exact .admitted hcommit hreviewed hopen hst (.inr ⟨⟨_, rfl⟩, hfailed⟩)
    · next row st j ht =>
        cases h
        obtain ⟨hb, rfl, _⟩ := transact_ok ht
        rcases admitOperation_ok hb with ⟨_, rfl, _⟩ | ⟨hc, _⟩
        · exact .quiet (.returned (.inr (.inr rfl))) (.refl _)
        · cases hc
    · next row st j ht =>
        cases h
        obtain ⟨hb, rfl, hopen⟩ := transact_ok ht
        rcases admitOperation_ok hb with ⟨hc, _⟩ | ⟨_, rfl, hreviewed, hcommit⟩
        · cases hc
        · exact .admitted hcommit hreviewed hopen (.refl _) (.inl ⟨rfl, rfl⟩)

theorem enter_move {c : Request} {row : Row} {fault : Fault} (h : enter sh c row fault = (st, ph')) :
    Move sh (.enter fault) (.admitted c row) { sh with store := st } ph' := by
  unfold enter at h
  split at h
  · next hr => cases h; exact .quiet (.refused (.inl rfl)) (ready_degrades hr)
  · next hr => cases h; exact .quiet (.entered hr) (ready_degrades hr)

theorem prepare_move {c : Request} {row : Row} {orders : Except Exc (List BrokerOrder)} {fault : Fault}
    {a : Assessment} (h : prepare sh c row orders fault a = (st, ph')) :
    Move sh (.prepare orders fault a) (.entered c row) { sh with store := st } ph' := by
  unfold prepare at h
  split at h
  · next hp => cases h; exact .quiet (.refused (.inr (.inl rfl))) (prepare_degrades hp)
  · next hp => cases h; exact .quiet (.prepared hp) (prepare_degrades hp)

/-- A marker attempt ends as the step it belongs to says: with the marker, with a
refusal, or with a marker the caller was not told of. -/
theorem mark_cases {row : Row} {p : Prepared} {fault : Fault} {r : Except Exc Unit} {j : Journal}
    (h : mark sh row p fault = (r, st, j)) :
    Degrades sh.store st ∧
      ((j = sh.journal ∧ ∃ e, r = .error e) ∨
        Marks row.operationId p.merged sh.journal j ∧ sh.store.failed = none ∧
          (r = .ok () ∧ st = sh.store ∨ (∃ e, r = .error e) ∧ st.failed ≠ none)) := by
  obtain ⟨hst, hj | ⟨_, hb, hopen, hr⟩⟩ := transact_cases h
  · exact ⟨hst, .inl hj⟩
  · exact ⟨hst, .inr ⟨markDispatch_ok hb, hopen, hr⟩⟩

theorem markPaper_move {c : Request} {row : Row} {p : Prepared} {controls confirm : Option Exc}
    {readyFault fault : Fault} {relock : Option String}
    (h : markPaper sh c row p controls confirm fault = (sh', ph')) :
    Move sh (.mark controls readyFault confirm fault relock) (.prepared c row p) sh' ph' := by
  have hph : ∃ q, Phase.prepared c row p = .prepared c row q := ⟨p, rfl⟩
  unfold markPaper at h
  split at h
  · cases h; exact .quiet (.refused (.inr (.inr hph))) (.refl _)
  · cases h; exact .quiet (.refused (.inr (.inr hph))) (.refl _)
  · split at h
    · next hm =>
        cases h
        obtain ⟨hst, ⟨rfl, _⟩ | ⟨hcommit, hopen, ⟨hr, _⟩ | ⟨_, hfailed⟩⟩⟩ := mark_cases hm
        · exact .quiet (.refused (.inr (.inr hph))) hst
        · cases hr
        · exact .marked hcommit hopen hst (.inr ⟨⟨_, rfl⟩, hfailed⟩)
    · next hm =>
        cases h
        obtain ⟨hst, ⟨_, e, he⟩ | ⟨hcommit, hopen, ⟨_, hs⟩ | ⟨⟨e, he⟩, _⟩⟩⟩ := mark_cases hm
        · cases he
        · exact .marked hcommit hopen hst (.inl ⟨rfl, hs⟩)
        · cases he

theorem beforeDispatch_cases {row : Row} {p : Prepared} {readyFault fault : Fault} {confirm : Option Exc}
    {r : Except Exc Unit} {j : Journal} (h : beforeDispatch sh row p readyFault confirm fault = (r, st, j)) :
    Degrades sh.store st ∧
      ((j = sh.journal ∧ ∃ e, r = .error e) ∨
        Marks row.operationId p.merged sh.journal j ∧ sh.store.failed = none ∧
          (r = .ok () ∧ st = sh.store ∨ (∃ e, r = .error e) ∧ st.failed ≠ none)) := by
  unfold beforeDispatch at h
  split at h
  · next hr => cases h; exact ⟨ready_degrades hr, .inl ⟨rfl, _, rfl⟩⟩
  · next hr =>
      obtain ⟨rfl, _⟩ := ready_ok hr
      split at h
      · cases h; exact ⟨.refl _, .inl ⟨rfl, _, rfl⟩⟩
      · split at h
        · cases h; exact ⟨.refl _, .inl ⟨rfl, _, rfl⟩⟩
        · cases hm : mark { sh with store := sh.store } row p fault with
          | mk r' rest =>
              obtain ⟨st', j'⟩ := rest
              rw [hm] at h
              cases h
              obtain ⟨hst, ⟨hj, e, rfl⟩ | ⟨hcommit, hopen, ⟨rfl, hs⟩ | ⟨⟨e, rfl⟩, hfailed⟩⟩⟩ := mark_cases hm
              · exact ⟨hst, .inl ⟨hj, _, rfl⟩⟩
              · exact ⟨hst, .inr ⟨hcommit, hopen, .inl ⟨rfl, hs⟩⟩⟩
              · exact ⟨hst, .inr ⟨hcommit, hopen, .inr ⟨⟨_, rfl⟩, hfailed⟩⟩⟩

theorem markReal_move {c : Request} {row : Row} {p : Prepared} {controls confirm : Option Exc}
    {readyFault fault : Fault} {relock : Option String}
    (h : markReal sh c row p controls readyFault confirm fault relock = (sh', ph')) :
    Move sh (.mark controls readyFault confirm fault relock) (.prepared c row p) sh' ph' := by
  have hph : ∃ q, Phase.prepared c row p = .prepared c row q := ⟨p, rfl⟩
  unfold markReal at h
  split at h
  · cases h; exact .quiet (.refused (.inr (.inr hph))) (.refl _)
  · split at h
    · next hb =>
        cases h
        obtain ⟨hst, ⟨rfl, _⟩ | ⟨hcommit, hopen, ⟨hr, _⟩ | ⟨_, hfailed⟩⟩⟩ := beforeDispatch_cases hb
        · exact .quiet (.refused (.inr (.inr hph))) hst
        · cases hr
        · exact .marked hcommit hopen hst (.inr ⟨⟨_, rfl⟩, hfailed⟩)
    · next hb =>
        cases h
        obtain ⟨hst, ⟨_, e, he⟩ | ⟨hcommit, hopen, ⟨_, hs⟩ | ⟨⟨e, he⟩, _⟩⟩⟩ := beforeDispatch_cases hb
        · cases he
        · exact .marked hcommit hopen hst (.inl ⟨rfl, hs⟩)
        · cases he

theorem start_move {c : Request} {row : Row} {p : Prepared} {failure relock : Option String} :
    Move sh (.start failure relock) (.marked c row p) (start sh c row p failure relock).1
      (start sh c row p failure relock).2 := by
  cases failure with
  | some message => exact .quiet .startFailed (.refl _)
  | none => exact .started

theorem lateResult_reports (op : OperationId) (o : Outcome) (committed : Bool) (e : Exc) :
    Reports op o (lateResult op o committed e) := by
  refine ⟨rfl, rfl, fun d hd => ?_⟩
  cases committed with
  | true => exact (Option.some.inj hd).symm
  | false => cases hd

/-- `_finish` stores the outcome, or keeps it as a late failure. -/
theorem finish_cases {row : Row} {o : Outcome} {fault fault' : Fault} {result : Result}
    (h : finish sh row o fault fault' = (sh', result)) :
    Degrades sh.store sh'.store ∧ sh'.starts = sh.starts ∧
      Reports row.operationId o result ∧ (sh'.journal = sh.journal ∨ sh.store.failed = none) ∧
      (Concludes row.operationId o sh.journal sh'.journal ∧ sh'.late = sh.late ∨
        (sh'.journal = sh.journal ∨ Concludes row.operationId o sh.journal sh'.journal) ∧
          sh'.late = ⟨row, result⟩ :: sh.late) := by
  unfold finish at h
  split at h
  · next ht =>
      cases h
      obtain ⟨hst, ⟨rfl, _⟩ | ⟨_, hb, hopen, _⟩⟩ := transact_cases ht
      · exact ⟨hst, rfl, lateResult_reports _ _ _ _, .inl rfl, .inr ⟨.inl rfl, rfl⟩⟩
      · exact ⟨hst, rfl, lateResult_reports _ _ _ _, .inr hopen, .inr ⟨.inr (outcome_ok hb), rfl⟩⟩
  · next ht =>
      obtain ⟨hb, rfl, hopen⟩ := transact_ok ht
      have hcommit := outcome_ok hb
      split at h
      · next hr => cases h; exact ⟨(read_cases hr).1, rfl, lateResult_reports _ _ _ _, .inr hopen, .inr ⟨.inr hcommit, rfl⟩⟩
      · next hr => cases h; exact ⟨(read_cases hr).1, rfl, lateResult_reports _ _ _ _, .inr hopen, .inr ⟨.inr hcommit, rfl⟩⟩
      · next current st' hr =>
          cases h
          refine ⟨(read_cases hr).1, rfl, ?_, .inr hopen, .inl ⟨hcommit, rfl⟩⟩
          have hrow := (read_ok hr).1.symm
          rw [hcommit.rows, Option.map_eq_some_iff] at hrow
          obtain ⟨r, hold, rfl⟩ := hrow
          obtain ⟨hkey, hstate, hdisposition⟩ := concluded_self (o := o) (row_key hold)
          exact ⟨hkey, hstate, fun d hd => (Option.some.inj hd).symm.trans hdisposition⟩

theorem refuse_move {c : Request} {row : Row} {e : Exc} {fault fault' : Fault}
    (h : refuse sh c row e fault fault' = (sh', ph')) :
    Move sh (.refuse fault fault') (.refusing c row e) sh' ph' := by
  unfold refuse at h
  split at h
  · unfold refusePaper at h
    split at h
    · next ht =>
        cases h
        obtain ⟨hst, ⟨rfl, _⟩ | ⟨_, hb, hopen, _⟩⟩ := transact_cases ht
        · exact .refused hst (.inl rfl) (.inl rfl)
        · exact .refused hst (.inr ⟨hopen, _, outcome_ok hb⟩) (.inl rfl)
    · next ht =>
        cases h
        obtain ⟨hst, ⟨rfl, _⟩ | ⟨_, hb, hopen, _⟩⟩ := transact_cases ht
        · exact .refused hst (.inl rfl) (.inl rfl)
        · exact .refused hst (.inr ⟨hopen, _, outcome_ok hb⟩) (.inl rfl)
  · cases hf : finish sh row (refusedOutcome e.message) fault fault' with
    | mk sh₁ result =>
        rw [hf] at h
        cases h
        obtain ⟨hst, hstarts, hresult, hopen, hstored⟩ := finish_cases hf
        obtain ⟨j, st, late, starts⟩ := sh₁
        dsimp only at hst hstarts hstored hopen
        subst hstarts
        have hj : j = sh.journal ∨ sh.store.failed = none ∧
            ∃ message, Concludes row.operationId (refusedOutcome message) sh.journal j := by
          rcases hopen with hsame | hopen
          · exact .inl hsame
          · rcases hstored with ⟨hc, _⟩ | ⟨hsame | hc, _⟩
            · exact .inr ⟨hopen, _, hc⟩
            · exact .inl hsame
            · exact .inr ⟨hopen, _, hc⟩
        rcases hstored with ⟨_, hlate⟩ | ⟨_, hlate⟩
        · exact .refused hst hj (.inl hlate)
        · exact .refused hst hj (.inr ⟨result, hlate, hresult.operationId⟩)

theorem check_move {op : OperationId} {fault fault' : Fault} {due started : ℚ} (hrest : ph.resting = true)
    (h : check sh op fault fault' due started = (st, ph')) :
    Move sh (.check op fault fault' due started) ph { sh with store := st } ph' := by
  unfold check at h
  split at h
  · next hr => cases h; exact .quiet (.checkReturned hrest) (read_cases hr).1
  · next hr => cases h; exact .quiet (.checkReturned hrest) (read_cases hr).1
  · next row st₁ hr =>
      have hst := (read_cases hr).1
      have hrow := (read_ok hr).1.symm
      split at h
      · cases h; exact .quiet (.checkReturned hrest) hst
      · next hlate =>
          split at h
          · next hd => cases h; exact .quiet (.checkReturned hrest) (hst.trans (read_cases hd).1)
          · next rows st₂ hd =>
              have hst := hst.trans (read_cases hd).1
              obtain ⟨rfl, _⟩ := read_ok hd
              dsimp only at h
              split at h
              · cases h; exact .quiet (.checkReturned hrest) hst
              · next hany =>
                  rw [not_not, List.any_eq_true] at hany
                  obtain ⟨r, hr, hop⟩ := hany
                  obtain ⟨hrow', hdue, hreview⟩ := mem_recoveryRows.mp hr
                  rw [decide_eq_true_eq] at hop
                  rw [hop] at hrow' hreview
                  cases hrow.symm.trans hrow'
                  have hn : Due sh op due ⟨row, sh.journal.recoveryChecks op⟩ :=
                    ⟨hrow, rfl, hdue, hreview, by simpa using hlate⟩
                  split at h
                  · next hreal =>
                      cases h
                      exact .quiet (.notDispatched hrest hn hreal.1 hreal.2.1 hreal.2.2) hst
                  · cases h; exact .quiet (.checking hrest hn) hst

theorem block_move {n : Snapshot} {started : ℚ} {found : List BrokerOrder} {fault : Fault}
    (h : block sh n started found fault = (sh', ph')) :
    Move sh (.block fault) (.correlated n started found) sh' ph' := by
  unfold block at h
  split at h
  · next ht =>
      cases h
      obtain ⟨hst, ⟨rfl, _⟩ | ⟨_, hb, _⟩⟩ := transact_cases ht
      · exact .quiet .blockFailed hst
      · exact .blocked (blockLateOrder_ok hb) hst (.inr ⟨_, rfl⟩)
  · next ht =>
      cases h
      obtain ⟨hb, rfl, _⟩ := transact_ok ht
      exact .blocked (blockLateOrder_ok hb) (.refl _) (.inl rfl)

theorem record_move {n : Snapshot} {started completed : ℚ} {k : Conclusion} {stopped : Bool}
    {fault fault' : Fault} (h : record sh n started completed k stopped fault fault' = (sh', ph')) :
    Move sh (.record completed stopped fault fault') (.concluding n started k) sh' ph' := by
  unfold record at h
  split at h
  · cases h; exact .quiet .unrecorded (.refl _)
  · next hstopped =>
      rw [Bool.not_eq_true] at hstopped
      subst hstopped
      dsimp only at h
      split at h
      · next ht =>
          cases h
          obtain ⟨hst, ⟨rfl, _⟩ | ⟨_, hb, _⟩⟩ := transact_cases ht
          · exact .quiet .unrecorded hst
          · exact .recorded (recordRecovery_ok hb) hst
      · next ht =>
          obtain ⟨hb, rfl, _⟩ := transact_ok ht
          have hcommit := recordRecovery_ok hb
          split at h <;> (next hr => cases h; exact .recorded hcommit (read_cases hr).1)

/-- The step of a thread is one of the moves. -/
theorem act_move {i : Input} (h : act sh ph i = some (sh', ph')) : Move sh i ph sh' ph' := by
  unfold act at h
  split at h
  · next c refusal =>
      split at h
      · next hrest =>
          cases h
          cases refusal with
          | none => exact .quiet (.present hrest) (.refl _)
          | some e => exact .quiet (.reject hrest) (.refl _)
      · cases h
  · cases h; exact lookup_move rfl
  · cases h; exact preflight_move rfl
  · exact admitOperation_move (Option.some.inj h)
  · cases h; exact enter_move rfl
  · cases h; exact prepare_move rfl
  · have h := Option.some.inj h
    split at h
    · exact markPaper_move h
    · exact markReal_move h
  · next c row p failure relock =>
      have hmove : Move sh (.start failure relock) (.marked c row p) _ _ := start_move
      rwa [Option.some.inj h] at hmove
  · cases h; exact .quiet .answered (.refl _)
  · next c row p sdk o fault fault' =>
      cases hf : finish sh row o fault fault' with
      | mk sh₁ result =>
          rw [hf] at h
          cases h
          obtain ⟨hst, hstarts, hresult, _, hstored⟩ := finish_cases hf
          obtain ⟨j, st, late, starts⟩ := sh₁
          dsimp only at hst hstarts hstored
          subst hstarts
          exact .finished hst hresult hstored
  · exact refuse_move (Option.some.inj h)
  · split at h
    · next hrest => cases h; exact check_move hrest rfl
    · cases h
  · cases h; exact .quiet .observed (.refl _)
  · exact block_move (Option.some.inj h)
  · cases h; exact .quiet .accounted (.refl _)
  · exact record_move (Option.some.inj h)
  · cases h

end MoomooMcp.Executor
