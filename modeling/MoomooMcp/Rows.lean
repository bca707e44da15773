import MoomooMcp.Invariant

namespace MoomooMcp.System

open ExecutionStore Executor

/-- What a step of the deployment can do to one row. -/
inductive RowStep (s : Sys) (s' : Sys) : Action → Row → Row → Prop
  | kept {a r} : RowStep s s' a r r
  | marked {p t i c row q} (hp : s.process = some p) (hph : p.threads t = .prepared c row q)
      (hmarkers : s'.journal.markers = s.journal.markers ++ [row.operationId]) :
      RowStep s s' (.thread t i) row (row.markDispatch q.merged)
  | concluded {p t c row q sdk o fault fault'} (hp : s.process = some p)
      (hph : p.threads t = .finishing c row q sdk o)
      (hcommit : Concludes row.operationId o s.journal s'.journal) :
      RowStep s s' (.thread t (.finish fault fault')) (row.markDispatch q.merged)
        (Row.concluded row.operationId o (row.markDispatch q.merged))
  | observed {p t c row q sdk o fault fault' r} (hp : s.process = some p)
      (hph : p.threads t = .finishing c row q sdk o) (hother : r.operationId ≠ row.operationId)
      (hstate : o.state = .acknowledged) (hobserved : r.operationId ∈ o.observedModifications)
      (hkind : r.kind = .modify) (hack : r.state = .acknowledged)
      (hcommit : Concludes row.operationId o s.journal s'.journal) :
      RowStep s s' (.thread t (.finish fault fault')) r { r with modificationObserved := true }
  | refused {p t i c row e message} (hp : s.process = some p) (hph : p.threads t = .refusing c row e) :
      RowStep s s' (.thread t i) row (row.outcome (refusedOutcome message))
  | checked {p t n started k completed fault fault'} (hp : s.process = some p)
      (hph : p.threads t = .concluding n started k)
      (hchecks : s'.journal.checks =
        s.journal.checks ++ [(recovery n started completed k).check n.row.operationId])
      (haudits : s'.journal.audits = s.journal.audits) :
      RowStep s s' (.thread t (.record completed false fault fault')) n.row
        (n.row.recordCheck (recovery n started completed k))
  | resolved {p t n started k completed fault fault' resolution target} (hp : s.process = some p)
      (hph : p.threads t = .concluding n started k) (hresolution : k.resolution = some resolution)
      (htarget : s.journal.disposition n.row
        ((s.journal.recordCheck n.row.operationId (recovery n started completed k)).negatives n.row.operationId)
        (recovery n started completed k) resolution = .ok target)
      (hchecks : s'.journal.checks =
        s.journal.checks ++ [(recovery n started completed k).check n.row.operationId])
      (haudits : s'.journal.audits =
        s.journal.audits ++ [(recovery n started completed k).audit n.row resolution p.store.epoch])
      (hreviews : s'.journal.reviews = s.journal.reviews.filter (fun r => r.1 ≠ n.row.operationId)) :
      RowStep s s' (.thread t (.record completed false fault fault')) n.row
        ((n.row.recordCheck (recovery n started completed k)).resolve (recovery n started completed k)
          resolution target)
  | recovered {epoch fault fault' r} (hp : s.process = none) (hstate : r.state = .dispatching) :
      RowStep s s' (.reopen epoch fault fault') r r.recoverDispatch

variable {env : Environment} {ok : Sys → Action → Sys → Prop} {s s' : Sys} {a : Action} {k : OperationId}

theorem concluded_refused {row : Row} {message : String} :
    Row.concluded row.operationId (refusedOutcome message) row = row.outcome (refusedOutcome message) := by
  unfold Row.concluded
  rw [if_neg (by simp [refusedOutcome]), Row.only_self rfl]

/-- What a stored outcome does to the row of its operation, or to another one. -/
theorem rowStep_finished {p : Process} {t : Tid} {c : Request} {row : Row} {q : Preparation.Prepared}
    {sdk : Option SdkAnswer} {o : Outcome} {fault fault' : Fault} (hp : s.process = some p)
    (hph : p.threads t = .finishing c row q sdk o) (hflight : InFlight s.journal row q)
    (hc : Concludes row.operationId o s.journal s'.journal) {r' : Row} (hr' : s'.journal.row k = some r') :
    ∃ r, s.journal.row k = some r ∧ RowStep s s' (.thread t (.finish fault fault')) r r' := by
  rw [hc.rows, Option.map_eq_some_iff] at hr'
  obtain ⟨r, hr, rfl⟩ := hr'
  refine ⟨r, hr, ?_⟩
  by_cases hk : r.operationId = row.operationId
  · have hkey := (row_key hr).symm.trans hk
    rw [hkey, hflight] at hr
    cases hr
    exact .concluded hp hph hc
  · rcases concluded_other hk with hsame | ⟨hstate, hobserved, hkind, hack, hflag⟩
    · rw [hsame]
      exact .kept
    · rw [hflag]
      exact .observed hp hph hk hstate hobserved hkind hack hc

theorem rowStep_recorded {p : Process} {t : Tid} {n : Snapshot} {started completed : ℚ} {c : Conclusion}
    {fault fault' : Fault} (hp : s.process = some p) (hph : p.threads t = .concluding n started c)
    (hstored : s.journal.row n.row.operationId = some n.row)
    (hc : Records p.store.epoch n.row.operationId (recovery n started completed c) s.journal s'.journal)
    {r' : Row} (hr' : s'.journal.row k = some r') :
    ∃ r, s.journal.row k = some r ∧ RowStep s s' (.thread t (.record completed false fault fault')) r r' := by
  by_cases hk : k = n.row.operationId
  · subst hk
    refine ⟨n.row, hstored, ?_⟩
    generalize hj : s'.journal = j at hc hr'
    cases hc with
    | check =>
        rw [row_recordCheck, hstored, Option.map_some, Row.only_self rfl] at hr'
        cases hr'
        exact .checked hp hph (by rw [hj]; rfl) (by rw [hj]; rfl)
    | resolved row resolution target hrow _ hsome htarget =>
        rw [hstored] at hrow
        cases hrow
        have hkey : (n.row.recordCheck (recovery n started completed c)).operationId = n.row.operationId := rfl
        rw [row_resolve, row_recordCheck, hstored, Option.map_some, Option.map_some, Row.only_self rfl,
          Row.only_self hkey] at hr'
        cases hr'
        exact .resolved hp hph hsome htarget (by rw [hj]; rfl) (by rw [hj]; rfl) (by rw [hj]; rfl)
  · rw [(hc.other hk).1] at hr'
    exact ⟨r', hr', .kept⟩

theorem rowStep_startup {epoch : Epoch} {fault fault' : Fault} {j : Journal} (hp : s.process = none)
    (hstartup : Startup epoch s.journal j) {r' : Row} (hr' : j.row k = some r') :
    ∃ r, s.journal.row k = some r ∧ RowStep s s' (.reopen epoch fault fault') r r' := by
  rw [hstartup.rows, Option.map_eq_some_iff] at hr'
  obtain ⟨r, hr, rfl⟩ := hr'
  refine ⟨r, hr, ?_⟩
  by_cases hstate : r.state = .dispatching
  · exact .recovered hp hstate
  · have hsame : r.recoverDispatch = r := if_neg hstate
    rw [hsame]
    exact .kept

/-- Every row of the next state has a history of one step: it was there and one of
the known things happened to it, or it was admitted just now. -/
theorem row_step (hs : Inv s) (h : Transition s a s') {r' : Row} (hr' : s'.journal.row k = some r') :
    (∃ r, s.journal.row k = some r ∧ RowStep s s' a r r') ∨
      s.journal.row k = none ∧ s.journal.reviews = ∅ ∧ ∃ c account uuid,
        r' = (admission s.journal.environment c account uuid).row := by
  cases h with
  | @thread p t i sh ph _ _ hp _ hmove =>
      have hok := (hs.process p hp).threads t
      generalize hph : p.threads t = ph₀ at hmove hok
      dsimp only at hr'
      cases hmove with
      | quiet | started => exact .inl ⟨r', hr', .kept⟩
      | admitted hcommit =>
          have hrow := hcommit.rows k
          dsimp only at hr'
          rw [hr'] at hrow
          split at hrow
          · next hk => cases hrow; exact .inr ⟨by rw [hk]; exact hcommit.fresh, hcommit.unblocked, _, _, _, rfl⟩
          · exact .inl ⟨r', hrow.symm, .kept⟩
      | @marked c row q _ _ _ _ _ st j _ hcommit =>
          obtain ⟨_, hfresh, _⟩ := hok
          have hstored : s.journal.row row.operationId = some row := hfresh.stored
          dsimp only at hr'
          rw [hcommit.rows, Option.map_eq_some_iff] at hr'
          obtain ⟨r, hr, rfl⟩ := hr'
          refine .inl ⟨r, hr, ?_⟩
          by_cases hk : r.operationId = row.operationId
          · rw [Row.only_self hk]
            have hsame : r = row := by
              rw [← (row_key hr).symm.trans hk] at hstored
              exact Option.some.inj (hr.symm.trans hstored)
            subst hsame
            exact .marked hp hph (by dsimp only; rw [hcommit.rest]; rfl)
          · rw [Row.only_other hk]
            exact .kept
      | finished _ _ hstored =>
          obtain ⟨_, hflight, _⟩ := hok
          rcases hstored with ⟨hc, _⟩ | ⟨rfl | hc, _⟩
          · refine .inl (rowStep_finished hp hph hflight ?_ hr')
            exact hc
          · exact .inl ⟨r', hr', .kept⟩
          · refine .inl (rowStep_finished hp hph hflight ?_ hr')
            exact hc
      | @refused c row e _ _ _ _ _ _ _ hstored =>
          obtain ⟨hadmitted, _, hstate⟩ := hok
          rcases hstored with rfl | ⟨hopen, message, hc⟩
          · exact .inl ⟨r', hr', .kept⟩
          · have hfresh : Fresh s.journal row := hstate.resolve_right (fun ⟨_, hfailed⟩ => hfailed hopen)
            dsimp only at hr'
            rw [hc.rows, Option.map_eq_some_iff] at hr'
            obtain ⟨r, hr, rfl⟩ := hr'
            refine .inl ⟨r, hr, ?_⟩
            by_cases hk : r.operationId = row.operationId
            · have hsame : r = row := by
                have hstored := hfresh.stored
                rw [← (row_key hr).symm.trans hk] at hstored
                exact Option.some.inj (hr.symm.trans hstored)
              subst hsame
              rw [concluded_refused]
              exact .refused hp hph
            · have hsame : Row.concluded row.operationId (refusedOutcome message) r = r := by
                rcases concluded_other hk with hsame | ⟨hack, _⟩
                · exact hsame
                · cases hack
              rw [hsame]
              exact .kept
      | blocked hcommit => exact .inl ⟨r', (hcommit.row k).symm.trans hr', .kept⟩
      | recorded hcommit =>
          obtain ⟨hcurrent, _⟩ := hok
          refine .inl (rowStep_recorded hp hph hcurrent.stored ?_ hr')
          exact hcommit
  | crash | unopened => exact .inl ⟨r', hr', .kept⟩
  | unreviewed hp hstartup => exact .inl (rowStep_startup hp hstartup hr')
  | reviewed hp hstartup hreview =>
      exact .inl (rowStep_startup hp hstartup ((hreview.row k).symm.trans hr'))
  | opened hp hstartup hreview =>
      exact .inl (rowStep_startup hp hstartup ((hreview.row k).symm.trans hr'))

/-- A property of rows that holds at admission and that no step breaks holds of every row. -/
theorem row_rule {P : Row → Prop} (hadmitted : ∀ env c account uuid, P (admission env c account uuid).row)
    (hstep : ∀ s s' a r r', Reachable env ok s → RowStep s s' a r r' → P r → P r') (h : Reachable env ok s) {r : Row}
    (hr : s.journal.row k = some r) : P r := by
  have hall : ∀ k r, s.journal.row k = some r → P r := by
    refine h.induction (P := fun s => ∀ k r, s.journal.row k = some r → P r) ?_ ?_
    · rintro s rfl k r hr
      cases hr
    · intro s a s' hreach hp hnext _ k r' hr'
      rcases row_step (reachable_inv hreach) (step_transition hnext) hr' with ⟨r, hr, hrow⟩ | ⟨_, _, c, account, uuid, rfl⟩
      · exact hstep s s' a r r' hreach hrow (hp k r hr)
      · exact hadmitted _ c account uuid
  exact hall k r hr

theorem extends_step (h : Transition s a s') : s.journal.Extends s'.journal := by
  cases h with
  | thread _ _ hmove => exact hmove.extends
  | crash | unopened => exact .refl _
  | unreviewed _ hstartup => exact hstartup.extends
  | reviewed _ hstartup hreview | opened _ hstartup hreview => exact hstartup.extends.trans hreview.extends

theorem markers_step (h : Transition s a s') : s.journal.markers ⊆ s'.journal.markers := by
  have hkeep : ∀ {j : Journal}, j.markers = s.journal.markers → s.journal.markers ⊆ j.markers :=
    fun he => by rw [he]; exact List.Subset.refl _
  cases h with
  | thread _ _ hmove =>
      rcases hmove.markers with hsame | ⟨c, row, q, _, _, hcommit⟩
      · exact hkeep hsame
      · dsimp only
        rw [hcommit.rest]
        exact List.subset_append_left _ _
  | crash | unopened => exact List.Subset.refl _
  | unreviewed _ hstartup => exact hkeep (by rw [hstartup.rest])
  | reviewed _ hstartup hreview | opened _ hstartup hreview => exact hkeep (by rw [hreview.rest, hstartup.rest])

/-- Only a recorded recovery adds a check or an audit, or takes a review away. -/
theorem record_step (h : Transition s a s') :
    (s'.journal.checks = s.journal.checks ∧ s'.journal.audits = s.journal.audits ∧
      s.journal.reviews ⊆ s'.journal.reviews) ∨
    ∃ p t n started c completed fault fault', s.process = some p ∧
      a = .thread t (.record completed false fault fault') ∧ p.threads t = .concluding n started c ∧
      Records p.store.epoch n.row.operationId (recovery n started completed c) s.journal s'.journal := by
  have hnoted : ∀ {op : OperationId} {o : Outcome} {j : Journal}, Concludes op o s.journal j →
      j.checks = s.journal.checks ∧ j.audits = s.journal.audits ∧ s.journal.reviews ⊆ j.reviews := by
    intro op o j hc
    refine ⟨by rw [hc.rest], by rw [hc.rest], ?_⟩
    rintro ⟨k, reason⟩ hr
    rw [hc.reviews]
    exact mem_noted.mpr (.inr hr)
  have hstartup : ∀ {epoch : Epoch} {j : Journal}, Startup epoch s.journal j →
      j.checks = s.journal.checks ∧ j.audits = s.journal.audits ∧ s.journal.reviews ⊆ j.reviews := by
    intro epoch j hc
    refine ⟨by rw [hc.rest], by rw [hc.rest], ?_⟩
    rintro ⟨k, reason⟩ hr
    exact (hc.reviews k reason).mpr (.inl hr)
  have hreview : ∀ {epoch : Epoch} {j j' : Journal}, Startup epoch s.journal j → Reviews j j' →
      j'.checks = s.journal.checks ∧ j'.audits = s.journal.audits ∧ s.journal.reviews ⊆ j'.reviews := by
    intro epoch j j' hc hc'
    obtain ⟨hchecks, haudits, hreviews⟩ := hstartup hc
    refine ⟨by rw [hc'.rest]; exact hchecks, by rw [hc'.rest]; exact haudits, hreviews.trans ?_⟩
    rintro ⟨k, reason⟩ hr
    exact (hc'.reviews k reason).mpr (.inl hr)
  have hsame : s.journal.checks = s.journal.checks ∧ s.journal.audits = s.journal.audits ∧
      s.journal.reviews ⊆ s.journal.reviews := ⟨rfl, rfl, Finset.Subset.refl _⟩
  cases h with
  | @thread p t i sh ph _ _ hp _ hmove =>
      generalize hph : p.threads t = ph₀ at hmove
      cases hmove with
      | quiet | started => exact .inl hsame
      | admitted hcommit => left; dsimp only; rw [hcommit.rest]; exact hsame
      | marked hcommit => left; dsimp only; rw [hcommit.rest]; exact hsame
      | finished _ _ hstored =>
          rcases hstored with ⟨hc, _⟩ | ⟨rfl | hc, _⟩
          · exact .inl (hnoted hc)
          · exact .inl hsame
          · exact .inl (hnoted hc)
      | refused _ hstored =>
          rcases hstored with rfl | ⟨_, _, hc⟩
          · exact .inl hsame
          · exact .inl (hnoted hc)
      | blocked hcommit =>
          left
          dsimp only
          rw [hcommit.eq]
          exact ⟨rfl, rfl, Finset.subset_insert _ _⟩
      | recorded hcommit => exact .inr ⟨p, t, _, _, _, _, _, _, hp, rfl, hph, hcommit⟩
  | crash | unopened => exact .inl hsame
  | unreviewed _ hc => exact .inl (hstartup hc)
  | reviewed _ hc hc' | opened _ hc hc' => exact .inl (hreview hc hc')

/-- Whether a step records a recovery. -/
def Action.records : Action → Bool
  | .thread _ (.record _ _ _ _) => true
  | _ => false

theorem audits_kept (h : Transition s a s') (ha : a.records = false) : s'.journal.audits = s.journal.audits := by
  rcases record_step h with ⟨_, haudits, _⟩ | ⟨_, _, _, _, _, _, _, _, _, rfl, _⟩
  · exact haudits
  · cases ha

theorem RowStep.descends {r r' : Row} (h : RowStep s s' a r r') : r.Descends r' := by
  cases h with
  | kept => exact .refl r
  | marked => exact Row.markDispatch_descends _ _
  | concluded => exact Row.concluded_descends _ _ _
  | observed => exact ⟨rfl, rfl, rfl, rfl, rfl, rfl, rfl, id, id⟩
  | refused => exact Row.outcome_descends _ _
  | checked => exact Row.recordCheck_descends _ _
  | resolved => exact (Row.recordCheck_descends _ _).trans (Row.resolve_descends _ _ _ _)
  | recovered => exact Row.recoverDispatch_descends r

/-- A row gets its marker in the commit that logs it. -/
theorem RowStep.marker {r r' : Row} (h : RowStep s s' a r r') (hm : r'.marker = true) :
    r.marker = true ∨ s'.journal.markers = s.journal.markers ++ [r.operationId] := by
  cases h with
  | marked _ _ hmarkers => exact .inr hmarkers
  | concluded => exact .inl rfl
  | recovered =>
      unfold Row.recoverDispatch at hm
      split at hm <;> exact .inl hm
  | kept | observed | refused | checked | resolved => exact .inl hm

/-- Every marker is logged. -/
theorem marker_logged (h : Reachable env ok s) {r : Row} (hr : s.journal.row k = some r) (hm : r.marker = true) :
    k ∈ s.journal.markers := by
  have hall : ∀ k r, s.journal.row k = some r → r.marker = true → k ∈ s.journal.markers := by
    refine h.induction (P := fun s => ∀ k r, s.journal.row k = some r → r.marker = true → k ∈ s.journal.markers) ?_ ?_
    · rintro s rfl k r hr
      cases hr
    · intro s a s' hreach hlogged hnext _ k r' hr' hm
      have htransition := step_transition hnext
      rcases row_step (reachable_inv hreach) htransition hr' with ⟨r, hr, hrow⟩ | ⟨_, _, _, _, _, rfl⟩
      · rcases hrow.marker hm with hold | hnew
        · exact markers_step htransition (hlogged k r hr hold)
        · rw [hnew, row_key hr]
          exact List.mem_append_right _ (List.mem_singleton_self _)
      · cases hm
  exact hall k r hr hm

/-- Whoever owes an outcome wrote the latest marker. -/
theorem flight_last (h : Reachable env ok s) {p : Process} (hp : s.process = some p) {t : Tid} {row : Row}
    (hflight : (p.threads t).flight = some row) : ∃ past, s.journal.markers = past ++ [row.operationId] := by
  have hall : ∀ row, (p.threads t).flight = some row → ∃ past, s.journal.markers = past ++ [row.operationId] := by
    refine lock_rule (Q := fun s _ ph => ∀ row, ph.flight = some row →
      ∃ past, s.journal.markers = past ++ [row.operationId]) ?_ ?_ ?_ h hp t
    · intro s p ph hout row hflight
      rw [inLock_of_flight hflight] at hout
      cases hout
    · intro s p s' p' t i ph _ _ hundisturbed hq row hflight
      obtain ⟨past, hpast⟩ := hq row hflight
      exact ⟨past, hundisturbed.markers.trans hpast⟩
    · intro s p s' p' t i _ hmoved _ hq row hflight
      rcases hmoved.move.markers with hsame | ⟨c, row', q, hph, _, hcommit⟩
      · rcases hmoved.move.flight_of hflight with hold | hnew
        · obtain ⟨past, hpast⟩ := hq row hold
          exact ⟨past, hsame.trans hpast⟩
        · exact absurd hsame hnew
      · have hown := hmoved.move.own
        rw [hph, own_of_flight hflight] at hown
        rcases hown with hown | hown | ⟨_, _, _, hadmitting, _⟩
        · cases hown
          refine ⟨s.journal.markers, ?_⟩
          have hrest : s'.journal.markers = (shared s' p').journal.markers := rfl
          rw [hrest, hcommit.rest]
          rfl
        · cases hown
        · cases hadmitting
  exact hall row hflight

/-- An acknowledged operation had its marker. -/
theorem acknowledged_marker (h : Reachable env ok s) {r : Row} (hr : s.journal.row k = some r)
    (hstate : r.state = .acknowledged) : r.marker = true := by
  have hrule : r.state = .acknowledged → r.marker = true := by
    refine row_rule (P := fun r => r.state = .acknowledged → r.marker = true) ?_ ?_ h hr
    · intro env c account uuid hs
      cases hs
    · intro s s' a r r' hs hstep hr hs'
      cases hstep with
      | kept | checked => exact hr hs'
      | observed _ _ _ _ _ _ hack => exact hr hack
      | concluded => exact (Row.concluded_descends _ _ _).marker rfl
      | marked | refused => cases hs'
      | resolved _ _ _ htarget =>
          rcases disposition_state htarget with ht | ht | ht | ⟨ht, _⟩ <;> cases ht.symm.trans hs'
      | recovered _ hdispatching =>
          unfold Row.recoverDispatch at hs'
          rw [if_pos hdispatching] at hs'
          cases hs'
  exact hrule hstate

/-- The environment of a deployment is fixed. -/
theorem environment_step (h : Transition s a s') : s'.journal.environment = s.journal.environment := by
  cases h with
  | thread _ _ hmove => exact hmove.environment
  | crash | unopened => rfl
  | unreviewed _ hstartup => exact hstartup.environment
  | reviewed _ hstartup hreview | opened _ hstartup hreview =>
      exact hreview.environment.trans hstartup.environment

theorem reachable_environment (h : Reachable env ok s) : s.journal.environment = env :=
  h.induction (P := fun s => s.journal.environment = env) (fun _ he => by rw [he]; rfl)
    (fun _ _ _ _ he hstep _ => (environment_step (step_transition hstep)).trans he)

end MoomooMcp.System
