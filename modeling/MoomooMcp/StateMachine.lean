import MoomooMcp.AtMostOnce
import MoomooMcp.Rows

namespace MoomooMcp.ExecutionStore

open Executor (recorded_state)

/-- The states a row can be under review in. -/
def State.reviewable : State → Bool
  | .admitted | .acknowledged | .unknownOutcome => true
  | .dispatching | .refused | .reconciled | .terminalAccounted => false

def State.final : State → Bool
  | .refused | .reconciled | .terminalAccounted => true
  | .admitted | .dispatching | .acknowledged | .unknownOutcome => false

/-- How the reviews, the epochs and the order tags of a journal go with its rows. -/
structure Reviewed (j : Journal) : Prop where
  reviewable : ∀ k r, j.row k = some r → j.pending k → r.state.reviewable = true
  absent : ∀ k r, j.row k = some r → r.recoveryDisposition = some .assumedAbsent → r.state = .unknownOutcome
  undecided : ∀ k r, j.row k = some r → r.state = .admitted → r.recoveryDisposition = none
  begun : ∀ k r, j.row k = some r → r.admissionEpoch ∈ j.epochs
  earlier : ∀ k r, j.row k = some r → r.state = .admitted → j.epochs.getLast? ≠ some r.admissionEpoch → j.pending k
  tags : ∀ k k' r r', j.row k = some r → j.row k' = some r' → r.orderTag ≠ none → r.orderTag = r'.orderTag → k = k'

variable {j j' : Journal} {epoch : Epoch} {op : OperationId}

theorem Reviewed.tags_map {f : Row → Row} (h : Reviewed j) (hrows : ∀ k, j'.row k = (j.row k).map f)
    (hf : ∀ r : Row, r.Descends (f r)) {k k' : OperationId} {r r' : Row} (hr : j'.row k = some r)
    (hr' : j'.row k' = some r') (htag : r.orderTag ≠ none) (hsame : r.orderTag = r'.orderTag) : k = k' := by
  rw [hrows, Option.map_eq_some_iff] at hr hr'
  obtain ⟨q, hq, rfl⟩ := hr
  obtain ⟨q', hq', rfl⟩ := hr'
  rw [(hf q).orderTag] at htag hsame
  rw [(hf q').orderTag] at hsame
  exact h.tags k k' q q' hq hq' htag hsame

/-- A commit that maps every row and keeps what the reviews say about those it changes. -/
theorem Reviewed.of_map {f : Row → Row} (h : Reviewed j) (hrows : ∀ k, j'.row k = (j.row k).map f)
    (hf : ∀ r : Row, r.Descends (f r)) (hepochs : j'.epochs = j.epochs)
    (hreviewable : ∀ k r, j.row k = some r → j'.pending k → (f r).state.reviewable = true)
    (habsent : ∀ k r, j.row k = some r → (f r).recoveryDisposition = some .assumedAbsent →
      (f r).state = .unknownOutcome)
    (hadmitted : ∀ k r, j.row k = some r → (f r).state = .admitted →
      r.state = .admitted ∧ (f r).recoveryDisposition = r.recoveryDisposition ∧ (j.pending k → j'.pending k)) :
    Reviewed j' := by
  have hold : ∀ {k r'}, j'.row k = some r' → ∃ r, j.row k = some r ∧ r' = f r := by
    intro k r' hr'
    rw [hrows, Option.map_eq_some_iff] at hr'
    obtain ⟨r, hr, rfl⟩ := hr'
    exact ⟨r, hr, rfl⟩
  constructor
  · intro k r' hr' hpending
    obtain ⟨r, hr, rfl⟩ := hold hr'
    exact hreviewable k r hr hpending
  · intro k r' hr' hdisposition
    obtain ⟨r, hr, rfl⟩ := hold hr'
    exact habsent k r hr hdisposition
  · intro k r' hr' hstate
    obtain ⟨r, hr, rfl⟩ := hold hr'
    obtain ⟨hwas, hkept, _⟩ := hadmitted k r hr hstate
    rw [hkept]
    exact h.undecided k r hr hwas
  · intro k r' hr'
    obtain ⟨r, hr, rfl⟩ := hold hr'
    rw [hepochs, (hf r).admissionEpoch]
    exact h.begun k r hr
  · intro k r' hr' hstate hepoch
    obtain ⟨r, hr, rfl⟩ := hold hr'
    obtain ⟨hwas, _, hpending⟩ := hadmitted k r hr hstate
    rw [hepochs, (hf r).admissionEpoch] at hepoch
    exact hpending (h.earlier k r hr hwas hepoch)
  · intro k k' r r' hr hr' htag hsame
    exact h.tags_map hrows hf hr hr' htag hsame

theorem Reviewed.admits {a : Admission} (h : Reviewed j) (hc : Admits epoch a j j')
    (hlast : j.epochs.getLast? = some epoch) : Reviewed j' := by
  have hreviews : j'.reviews = j.reviews := by rw [hc.rest]
  have hepochs : j'.epochs = j.epochs := by rw [hc.rest]
  have hquiet : ∀ k, ¬j'.pending k := by
    rintro k ⟨reason, hreason⟩
    rw [hreviews, hc.unblocked] at hreason
    exact absurd hreason (Finset.notMem_empty _)
  have hcases : ∀ {k r}, j'.row k = some r → r = a.row ∧ k = a.operationId ∨ j.row k = some r := by
    intro k r hr
    rw [hc.rows] at hr
    split at hr
    · next hk => cases hr; exact .inl ⟨rfl, hk⟩
    · exact .inr hr
  constructor
  · intro k r _ hpending
    exact absurd hpending (hquiet k)
  · intro k r hr hdisposition
    rcases hcases hr with ⟨rfl, _⟩ | hold
    · cases hdisposition
    · exact h.absent k r hold hdisposition
  · intro k r hr hstate
    rcases hcases hr with ⟨rfl, _⟩ | hold
    · rfl
    · exact h.undecided k r hold hstate
  · intro k r hr
    rw [hepochs]
    rcases hcases hr with ⟨rfl, _⟩ | hold
    · rw [← hc.current] at hlast
      exact List.mem_of_getLast? hlast
    · exact h.begun k r hold
  · intro k r hr hstate hepoch
    rw [hepochs] at hepoch
    rcases hcases hr with ⟨rfl, _⟩ | hold
    · rw [hlast, ← hc.current] at hepoch
      exact absurd rfl hepoch
    · obtain ⟨reason, hreason⟩ := h.earlier k r hold hstate hepoch
      exact ⟨reason, by rw [hreviews]; exact hreason⟩
  · intro k k' r r' hr hr' htag hsame
    rcases hcases hr with ⟨rfl, rfl⟩ | hold <;> rcases hcases hr' with ⟨rfl, rfl⟩ | hold'
    · rfl
    · exact absurd hsame.symm (hc.tag htag k' r' hold')
    · exact absurd hsame (hc.tag (fun hn => htag (hsame.trans hn)) k r hold)
    · exact h.tags k k' r r' hold hold' htag hsame

theorem Reviewed.marks {merged : Params} (h : Reviewed j) (hc : Marks op merged j j') (hclear : j.reviews = ∅) :
    Reviewed j' := by
  obtain ⟨w, hw, hwait⟩ := hc.waiting
  have hreviews : j'.reviews = j.reviews := by rw [hc.rest]
  refine h.of_map hc.rows (Row.only_descends (Row.markDispatch_descends merged)) (by rw [hc.rest]) ?_ ?_ ?_
  · rintro k r _ ⟨reason, hreason⟩
    rw [hreviews, hclear] at hreason
    exact absurd hreason (Finset.notMem_empty _)
  · intro k r hr hdisposition
    by_cases hk : r.operationId = op
    · rw [Row.only_self hk] at hdisposition
      have hstate : r.state = .admitted := by
        rw [← hk, row_key hr, hr] at hw
        cases hw
        exact hwait
      cases (h.undecided k r hr hstate).symm.trans hdisposition
    · rw [Row.only_other hk] at hdisposition ⊢
      exact h.absent k r hr hdisposition
  · intro k r hr hstate
    by_cases hk : r.operationId = op
    · rw [Row.only_self hk] at hstate
      cases hstate
    · rw [Row.only_other hk] at hstate ⊢
      refine ⟨hstate, rfl, ?_⟩
      rintro ⟨reason, hreason⟩
      exact ⟨reason, by rw [hreviews]; exact hreason⟩

/-- An outcome write: a refusal of a quiet admission, or what came of a dispatch. -/
theorem Reviewed.concludes {o : Outcome} (h : Reviewed j) (hc : Concludes op o j j') {w : Row} (hw : j.row op = some w)
    (hout : o.state = .refused ∧ o.reason = none ∧ w.state = .admitted ∧ ¬j.pending op ∨
      w.state = .dispatching ∧ (o.state = .acknowledged ∨ o.state = .unknownOutcome)) : Reviewed j' := by
  have hself : ∀ {k r}, j.row k = some r → r.operationId = op → r = w ∧ k = op := by
    intro k r hr hk
    have hkey : k = op := (row_key hr).symm.trans hk
    rw [hkey, hw] at hr
    exact ⟨(Option.some.inj hr).symm, hkey⟩
  refine h.of_map hc.rows (Row.concluded_descends op o) (by rw [hc.rest]) ?_ ?_ ?_
  · intro k r hr hpending
    by_cases hk : r.operationId = op
    · rw [concluded_state hk]
      rcases hout with ⟨_, hreason, _, hquiet⟩ | ⟨_, hstate | hstate⟩
      · rcases hc.pending.mp hpending with ⟨_, hnoted⟩ | hold
        · exact absurd hreason hnoted
        · rw [(hself hr hk).2] at hold
          exact absurd hold hquiet
      · rw [hstate]; rfl
      · rw [hstate]; rfl
    · rw [concluded_other_state hk]
      rcases hc.pending.mp hpending with ⟨hself', _⟩ | hold
      · exact absurd ((row_key hr).trans hself') hk
      · exact h.reviewable k r hr hold
  · intro k r hr hdisposition
    by_cases hk : r.operationId = op
    · have hkept : r.recoveryDisposition = some .assumedAbsent := by
        rw [← hdisposition]
        exact (concluded_recoveryDisposition op o r).symm
      obtain ⟨rfl, _⟩ := hself hr hk
      have hunknown := h.absent k r hr hkept
      rcases hout with ⟨_, _, hstate, _⟩ | ⟨hstate, _⟩ <;> cases hunknown.symm.trans hstate
    · rw [concluded_recoveryDisposition] at hdisposition
      rw [concluded_other_state hk]
      exact h.absent k r hr hdisposition
  · intro k r hr hstate
    by_cases hk : r.operationId = op
    · rw [concluded_state hk] at hstate
      rcases hout with ⟨hrefused, _⟩ | ⟨_, hanswered | hanswered⟩
      · cases hrefused.symm.trans hstate
      · cases hanswered.symm.trans hstate
      · cases hanswered.symm.trans hstate
    · rw [concluded_other_state hk] at hstate
      exact ⟨hstate, concluded_recoveryDisposition op o r, fun hp => hc.pending.mpr (.inr hp)⟩

theorem Reviewed.blocks (h : Reviewed j) (hc : Blocks op j j') {w : Row} (hw : j.row op = some w)
    (hreviewable : w.state.reviewable = true) : Reviewed j' := by
  have hrow : ∀ k, j'.row k = j.row k := hc.row
  have hepochs : j'.epochs = j.epochs := by rw [hc.eq]
  have hpending : ∀ {k}, j'.pending k → k = op ∨ j.pending k := by
    rintro k ⟨reason, hreason⟩
    rw [hc.eq] at hreason
    rcases Finset.mem_insert.mp hreason with hnew | hold
    · cases hnew; exact .inl rfl
    · exact .inr ⟨reason, hold⟩
  refine h.of_map (f := id) (fun k => by rw [hrow]; simp) Row.Descends.refl hepochs ?_ ?_ ?_
  · intro k r hr hp
    rcases hpending hp with rfl | hold
    · rw [hw] at hr
      cases hr
      exact hreviewable
    · exact h.reviewable k r hr hold
  · exact h.absent
  · intro k r _ hstate
    refine ⟨hstate, rfl, ?_⟩
    rintro ⟨reason, hreason⟩
    refine ⟨reason, ?_⟩
    rw [hc.eq]
    exact Finset.mem_insert_of_mem hreason

theorem recorded_recoveryDisposition {rec : Recovery} (r : Row) :
    (Row.only op (Row.recordCheck rec) r).recoveryDisposition = r.recoveryDisposition := by
  unfold Row.only
  split <;> rfl

theorem awaitsReview_reviewable {r : Row} (h : r.awaitsReview = true) : r.state.reviewable = true := by
  simp only [Row.awaitsReview, decide_eq_true_eq] at h
  rcases h.1 with hstate | hstate <;> rw [hstate] <;> rfl

theorem Reviewed.recordCheck {rec : Recovery} (h : Reviewed j) : Reviewed (j.recordCheck op rec) := by
  refine h.of_map (row_recordCheck rec) (Row.only_descends (Row.recordCheck_descends rec)) rfl ?_ ?_ ?_
  · intro k r hr hpending
    rw [recorded_state]
    exact h.reviewable k r hr hpending
  · intro k r hr hdisposition
    rw [recorded_recoveryDisposition] at hdisposition
    rw [recorded_state]
    exact h.absent k r hr hdisposition
  · intro k r hr hstate
    rw [recorded_state] at hstate
    exact ⟨hstate, recorded_recoveryDisposition r, id⟩

/-- Where a resolution leads, and from where. -/
theorem disposition_target {row : Row} {count : ℕ} {r : Recovery} {resolution : Resolution} {target : State × Disposition}
    (h : j.disposition row count r resolution = .ok target) :
    resolution = .assumedAbsent ∧ target.1 = .unknownOutcome ∧ (row.state = .admitted ∨ row.state = .unknownOutcome) ∨
      resolution ≠ .assumedAbsent ∧
        (target.1 = .refused ∧ row.state = .admitted ∨ target.1 = .reconciled ∨ target.1 = .terminalAccounted) := by
  cases resolution with
  | assumedAbsent =>
      simp only [Journal.disposition] at h
      split_ifs at h with _ hrow
      cases h
      simp only [not_or, not_not] at hrow
      exact .inl ⟨rfl, rfl, by_contra (fun hn => hrow.2.1 (not_or.mp hn))⟩
  | _ =>
      refine .inr ⟨by simp, ?_⟩
      rcases disposition_state h with ht | ht | ht | ⟨ht, hstate, _⟩
      · simp only [Journal.disposition] at h
        split_ifs at h
        cases h
        cases ht
      · exact .inr (.inl ht)
      · exact .inr (.inr ht)
      · exact .inl ⟨ht, hstate⟩

theorem Reviewed.records {rec : Recovery} (h : Reviewed j) (hc : Records epoch op rec j j') : Reviewed j' := by
  cases hc with
  | check => exact h.recordCheck
  | resolved row resolution target hrow _ _ htarget =>
      have hcheck : Reviewed (j.recordCheck op rec) := h.recordCheck
      have hnew : ∀ r : Row, r.operationId = op → (Row.only op (Row.resolve rec resolution target) r).state = target.1 ∧
          (Row.only op (Row.resolve rec resolution target) r).recoveryDisposition = some resolution := by
        intro r hk
        rw [Row.only_self hk]
        exact ⟨rfl, rfl⟩
      refine hcheck.of_map (row_resolve rec resolution target _) (Row.only_descends (Row.resolve_descends _ _ _)) rfl
        ?_ ?_ ?_
      · rintro k r hr ⟨reason, hreason⟩
        obtain ⟨hreason, hk⟩ := Finset.mem_filter.mp hreason
        rw [Row.only_other (by rw [row_key hr]; exact hk)]
        exact hcheck.reviewable k r hr ⟨reason, hreason⟩
      · intro k r hr hdisposition
        by_cases hk : r.operationId = op
        · rw [(hnew r hk).2] at hdisposition
          cases hdisposition
          rw [(hnew r hk).1]
          rcases disposition_target htarget with ⟨_, ht, _⟩ | ⟨hne, _⟩
          · exact ht
          · exact absurd rfl hne
        · rw [Row.only_other hk] at hdisposition ⊢
          exact hcheck.absent k r hr hdisposition
      · intro k r hr hstate
        by_cases hk : r.operationId = op
        · rw [(hnew r hk).1] at hstate
          rcases disposition_state htarget with ht | ht | ht | ⟨ht, _⟩ <;> cases ht.symm.trans hstate
        · rw [Row.only_other hk] at hstate ⊢
          refine ⟨hstate, rfl, ?_⟩
          rintro ⟨reason, hreason⟩
          exact ⟨reason, Finset.mem_filter.mpr ⟨hreason, by rw [← row_key hr]; exact hk⟩⟩

theorem Reviewed.reviews (h : Reviewed j) (hc : Reviews j j') : Reviewed j' := by
  have hrow : ∀ k, j'.row k = j.row k := hc.row
  refine h.of_map (f := id) (fun k => by rw [hrow]; simp) Row.Descends.refl (by rw [hc.rest]) ?_ h.absent ?_
  · rintro k r hr ⟨reason, hreason⟩
    rcases (hc.reviews k reason).mp hreason with hold | ⟨_, r', hr', hawaits⟩
    · exact h.reviewable k r hr ⟨reason, hold⟩
    · rw [hr] at hr'
      cases hr'
      exact awaitsReview_reviewable hawaits
  · intro k r _ hstate
    refine ⟨hstate, rfl, ?_⟩
    rintro ⟨reason, hreason⟩
    exact ⟨reason, (hc.reviews k reason).mpr (.inl hreason)⟩

/-- A new epoch puts every admission of the earlier ones under review. -/
theorem Reviewed.startup (h : Reviewed j) (hc : Startup epoch j j') : Reviewed j' := by
  have hold : ∀ {k r'}, j'.row k = some r' → ∃ r, j.row k = some r ∧ r' = r.recoverDispatch := by
    intro k r' hr'
    rw [hc.rows, Option.map_eq_some_iff] at hr'
    obtain ⟨r, hr, rfl⟩ := hr'
    exact ⟨r, hr, rfl⟩
  have hepochs : j'.epochs = j.epochs ++ [epoch] := by rw [hc.rest]
  have hadmitted : ∀ {r : Row}, r.recoverDispatch.state = .admitted → r.recoverDispatch = r := by
    intro r hstate
    unfold Row.recoverDispatch at hstate ⊢
    split
    · next hd => rw [if_pos hd] at hstate; cases hstate
    · rfl
  constructor
  · rintro k r' hr' ⟨reason, hreason⟩
    obtain ⟨r, hr, rfl⟩ := hold hr'
    by_cases hstate : r.state = .dispatching
    · simp [Row.recoverDispatch, hstate, State.reviewable]
    · have hsame : r.recoverDispatch = r := if_neg hstate
      rcases (hc.reviews k reason).mp hreason with hwas | ⟨_, r₁, hr₁, hd⟩ | ⟨_, r₁, hr₁, hawaits⟩
      · rw [hsame]
        exact h.reviewable k r hr ⟨reason, hwas⟩
      · rw [hr] at hr₁
        cases hr₁
        exact absurd hd hstate
      · rw [hr'] at hr₁
        cases hr₁
        exact awaitsReview_reviewable hawaits
  · intro k r' hr' hdisposition
    obtain ⟨r, hr, rfl⟩ := hold hr'
    by_cases hstate : r.state = .dispatching
    · simp [Row.recoverDispatch, hstate]
    · have hsame : r.recoverDispatch = r := if_neg hstate
      rw [hsame] at hdisposition ⊢
      exact h.absent k r hr hdisposition
  · intro k r' hr' hstate
    obtain ⟨r, hr, rfl⟩ := hold hr'
    have hsame := hadmitted hstate
    rw [hsame] at hstate ⊢
    exact h.undecided k r hr hstate
  · intro k r' hr'
    obtain ⟨r, hr, rfl⟩ := hold hr'
    rw [hepochs, (Row.recoverDispatch_descends r).admissionEpoch]
    exact List.mem_append_left _ (h.begun k r hr)
  · intro k r' hr' hstate _
    have hr₀ := hr'
    obtain ⟨r, hr, rfl⟩ := hold hr'
    refine ⟨.startupReview, (hc.reviews k _).mpr (.inr (.inr ⟨rfl, r.recoverDispatch, hr₀, ?_⟩))⟩
    have hsame := hadmitted hstate
    rw [hsame] at hstate ⊢
    simp [Row.awaitsReview, hstate, h.undecided k r hr hstate]
  · intro k k' r r' hr hr' htag hsame
    exact h.tags_map hc.rows Row.recoverDispatch_descends hr hr' htag hsame

theorem reviewed_initial (env : Environment) : Reviewed (Journal.initial env) := by
  have hempty : ∀ k r, (Journal.initial env).row k ≠ some r := by
    intro k r h
    cases h
  exact ⟨fun k r h => absurd h (hempty k r), fun k r h => absurd h (hempty k r), fun k r h => absurd h (hempty k r),
    fun k r h => absurd h (hempty k r), fun k r h => absurd h (hempty k r), fun k _ r _ h => absurd h (hempty k r)⟩

end MoomooMcp.ExecutionStore

namespace MoomooMcp.System

open ExecutionStore Executor Machine

variable {env : Environment} {s s' : Sys} {a : Action} {k : OperationId} {r r' : Row}

/-- The changes of state a row may go through, given whether it was under review. -/
inductive Follows (reviewed : Prop) (r r' : Row) : Prop
  | kept (hstate : r'.state = r.state) (hdisposition : r'.recoveryDisposition = r.recoveryDisposition)
  | dispatched (hfrom : r.state = .admitted) (hto : r'.state = .dispatching)
  | refused (hfrom : r.state = .admitted) (hto : r'.state = .refused)
  | concluded (hfrom : r.state = .dispatching) (hto : r'.state = .acknowledged ∨ r'.state = .unknownOutcome)
  | absent (hfrom : r.state = .admitted ∨ r.state = .unknownOutcome) (hto : r'.state = .unknownOutcome)
      (hdisposition : r'.recoveryDisposition = some .assumedAbsent)
  | accounted (hfrom : r.state = .admitted ∨ r.state = .unknownOutcome ∨ r.state = .acknowledged ∧ reviewed)
      (hto : r'.state = .reconciled ∨ r'.state = .terminalAccounted)

/-- The reviews go with the rows, and the running process has the latest epoch. -/
structure Kept (s : Sys) : Prop where
  reviewed : Reviewed s.journal
  epoch : ∀ p, s.process = some p → s.journal.epochs.getLast? = some p.store.epoch

/-- What a check may resolve: what is under review, or was assumed absent. -/
theorem current_state (h : Reviewed s.journal) {n : Snapshot} (hn : Current s.journal n) :
    n.row.state = .admitted ∨ n.row.state = .unknownOutcome ∨
      n.row.state = .acknowledged ∧ s.journal.pending n.row.operationId := by
  rcases hn.review with hpending | habsent
  · have hreviewable := h.reviewable _ _ hn.stored hpending
    generalize hs : n.row.state = st at hreviewable
    cases st with
    | admitted => exact .inl rfl
    | unknownOutcome => exact .inr (.inl rfl)
    | acknowledged => exact .inr (.inr ⟨rfl, hpending⟩)
    | dispatching | refused | reconciled | terminalAccounted => cases hreviewable
  · exact .inr (.inl (h.absent _ _ hn.stored habsent))

theorem RowStep.follows (hs : Inv s) (hk : Kept s) (hr : s.journal.row k = some r) (h : RowStep s s' a r r') :
    Follows (s.journal.pending k) r r' := by
  cases h with
  | kept | observed | checked => exact .kept rfl rfl
  | @marked p t i c row q hp hph =>
      have hthread := (hs.process p hp).threads t
      rw [hph] at hthread
      exact .dispatched hthread.1.state rfl
  | @concluded p t c row q sdk o fault fault' hp hph =>
      have hthread := (hs.process p hp).threads t
      rw [hph] at hthread
      obtain ⟨_, _, _, _, hanswered⟩ := hthread
      refine .concluded rfl ?_
      have hto : (Row.concluded row.operationId o (row.markDispatch q.merged)).state = o.state := concluded_state rfl
      rw [hto]
      rcases hanswered.cases with ⟨hstate, _⟩ | ⟨hstate, _⟩
      · exact .inr hstate
      · exact .inl hstate
  | @refused p t i c row e message hp hph =>
      have hthread := (hs.process p hp).threads t
      rw [hph] at hthread
      exact .refused hthread.1.state rfl
  | @resolved p t n started conclusion completed fault fault' resolution target hp hph hresolution htarget =>
      have hthread := (hs.process p hp).threads t
      rw [hph] at hthread
      obtain ⟨hcurrent, _⟩ := hthread
      have hkey : k = n.row.operationId := (row_key hr).symm
      rcases disposition_target htarget with ⟨rfl, hto, hfrom⟩ | ⟨_, ⟨hto, hfrom⟩ | hto⟩
      · exact .absent hfrom hto rfl
      · exact .refused hfrom hto
      · rw [hkey]
        exact .accounted (current_state hk.reviewed hcurrent) hto
  | recovered _ hstate =>
      refine .concluded hstate (.inr ?_)
      simp [Row.recoverDispatch, hstate]

theorem thread_reviewed {p : Process} {t : Tid} {i : Input} {sh : Shared} {ph : Phase} (hs : Inv s) (hk : Kept s)
    (hp : s.process = some p) (hmove : Move (shared s p) i (p.threads t) sh ph) :
    Reviewed sh.journal ∧ sh.journal.epochs = s.journal.epochs := by
  have hok := (hs.process p hp).threads t
  have hlast := hk.epoch p hp
  have hreviewed : Reviewed (shared s p).journal := hk.reviewed
  generalize p.threads t = ph₀ at hmove hok
  cases hmove with
  | quiet | started => exact ⟨hreviewed, rfl⟩
  | admitted hcommit => exact ⟨hreviewed.admits hcommit hlast, by dsimp only; rw [hcommit.rest]; rfl⟩
  | marked hcommit =>
      obtain ⟨_, _, _, hclear⟩ := hok
      exact ⟨hreviewed.marks hcommit hclear.1, by dsimp only; rw [hcommit.rest]; rfl⟩
  | @finished c row q sdk o _ _ _ _ _ _ _ _ hstored =>
      obtain ⟨_, hflight, _, _, hanswered⟩ := hok
      have hconcludes : ∀ {j}, Concludes row.operationId o (shared s p).journal j →
          Reviewed j ∧ j.epochs = s.journal.epochs := by
        intro j hc
        refine ⟨hreviewed.concludes hc hflight (.inr ⟨rfl, ?_⟩), by rw [hc.rest]; rfl⟩
        rcases hanswered.cases with ⟨hstate, _⟩ | ⟨hstate, _⟩
        · exact .inr hstate
        · exact .inl hstate
      rcases hstored with ⟨hc, _⟩ | ⟨rfl | hc, _⟩
      · exact hconcludes hc
      · exact ⟨hreviewed, rfl⟩
      · exact hconcludes hc
  | @refused c row e _ _ _ _ _ _ _ hstored =>
      obtain ⟨hadmitted, _, hstate⟩ := hok
      rcases hstored with rfl | ⟨hopen, message, hc⟩
      · exact ⟨hreviewed, rfl⟩
      · have hfresh := hstate.resolve_right (fun ⟨_, hfailed⟩ => hfailed hopen)
        exact ⟨hreviewed.concludes hc hfresh.stored (.inl ⟨rfl, rfl, hadmitted.state, hfresh.quiet⟩),
          by dsimp only; rw [hc.rest]; rfl⟩
  | @blocked n _ _ _ _ _ _ hcommit =>
      obtain ⟨hcurrent, _, hlate, _⟩ := hok
      have hdisposition : n.row.recoveryDisposition = some .assumedAbsent := by
        simpa [Snapshot.late] using hlate
      have hstate := hreviewed.absent _ _ hcurrent.stored hdisposition
      exact ⟨hreviewed.blocks hcommit hcurrent.stored (by rw [hstate]; rfl), by dsimp only; rw [hcommit.eq]; rfl⟩
  | recorded hcommit =>
      refine ⟨hreviewed.records hcommit, ?_⟩
      cases hcommit <;> rfl

theorem kept_step (hs : Inv s) (hk : Kept s) (h : Transition s a s') : Kept s' := by
  cases h with
  | @thread p t i sh ph _ _ hp _ hmove =>
      obtain ⟨hreviewed, hepochs⟩ := thread_reviewed hs hk hp hmove
      refine ⟨hreviewed, ?_⟩
      rintro p' hp'
      cases hp'
      dsimp only
      rw [hepochs, hk.epoch p hp, hmove.degrades.epoch]
      rfl
  | crash => exact ⟨hk.reviewed, fun _ h => by cases h⟩
  | unopened => exact hk
  | unreviewed hp hstartup =>
      refine ⟨hk.reviewed.startup hstartup, fun p' hp' => ?_⟩
      rw [hp] at hp'
      cases hp'
  | reviewed hp hstartup hreview =>
      refine ⟨(hk.reviewed.startup hstartup).reviews hreview, fun p' hp' => ?_⟩
      rw [hp] at hp'
      cases hp'
  | opened _ hstartup hreview =>
      refine ⟨(hk.reviewed.startup hstartup).reviews hreview, ?_⟩
      rintro p' hp'
      cases hp'
      dsimp only
      rw [hreview.rest, hstartup.rest]
      exact List.getLast?_concat

theorem reachable_kept {ok : Sys → Action → Sys → Prop} (h : Reachable env ok s) : Kept s := by
  refine h.induction (P := Kept) ?_ ?_
  · rintro s rfl
    exact ⟨reviewed_initial env, fun _ h => by cases h⟩
  · intro s a s' hreach hk hnext _
    exact kept_step (reachable_inv hreach) hk (step_transition hnext)

theorem Follows.final {reviewed : Prop} (h : Follows reviewed r r') (hfinal : r.state.final = true) :
    r'.state = r.state := by
  cases h with
  | kept hstate => exact hstate
  | dispatched hfrom | refused hfrom | concluded hfrom => rw [hfrom] at hfinal; cases hfinal
  | absent hfrom => rcases hfrom with hfrom | hfrom <;> (rw [hfrom] at hfinal; cases hfinal)
  | accounted hfrom => rcases hfrom with hfrom | hfrom | ⟨hfrom, _⟩ <;> (rw [hfrom] at hfinal; cases hfinal)

/-- What later steps keep of a row: who asked for what, and a final state. -/
def Row.Settles (r r' : Row) : Prop := r.Descends r' ∧ (r.state.final = true → r'.state = r.state)

theorem settles_step (hs : Inv s) (hk : Kept s) (h : Transition s a s') (hr : s.journal.row k = some r) :
    ∃ r', s'.journal.row k = some r' ∧ Row.Settles r r' := by
  obtain ⟨r', hr', hdescends⟩ := extends_step h k r hr
  refine ⟨r', hr', hdescends, fun hfinal => ?_⟩
  rcases row_step hs h hr' with ⟨r₀, hr₀, hstep⟩ | ⟨hnone, _⟩
  · rw [hr] at hr₀
    cases hr₀
    exact (hstep.follows hs hk hr).final hfinal
  · rw [hr] at hnone
    cases hnone

theorem settles_run {ok : Sys → Action → Sys → Prop} {as : List Action} {u : Sys} (hreach : Reachable env ok s)
    (h : Path step ok s as u) (hr : s.journal.row k = some r) : ∃ r', u.journal.row k = some r' ∧ Row.Settles r r' := by
  induction h generalizing r with
  | nil => exact ⟨r, hr, .refl r, fun _ => rfl⟩
  | cons hstep hok _ ih =>
      obtain ⟨r₁, hr₁, hdescends, hfinal⟩ :=
        settles_step (reachable_inv hreach) (reachable_kept hreach) (step_transition hstep) hr
      obtain ⟨r', hr', hdescends', hfinal'⟩ := ih (hreach.step hstep hok) hr₁
      refine ⟨r', hr', hdescends.trans hdescends', fun hf => ?_⟩
      have hsame := hfinal hf
      rw [← hsame] at hf ⊢
      exact hfinal' hf

/-- The journal of one environment as a state machine over the rows. -/
structure Disciplined (s : Sys) : Prop where
  earlier : ∀ k r, s.journal.row k = some r → r.state = .admitted →
    s.journal.epochs.getLast? ≠ some r.admissionEpoch → s.journal.pending k
  unknown : ∀ k r, s.journal.row k = some r → r.state = .unknownOutcome → r.recoveryDisposition = none →
    s.journal.pending k
  tags : ∀ k k' r r', s.journal.row k = some r → s.journal.row k' = some r' → r.orderTag ≠ none →
    r.orderTag = r'.orderTag → k = k'
  follows : ∀ a s' k r', step s a = some s' → s'.journal.row k = some r' →
    (∃ r, s.journal.row k = some r ∧ Follows (s.journal.pending k) r r') ∨
      s.journal.row k = none ∧ r'.state = .admitted
  settles : ∀ as u k r, run step s as = some u → s.journal.row k = some r →
    ∃ r', u.journal.row k = some r' ∧ Row.Settles r r'

/-- A recovery write for a state that the row no longer has. -/
def StaleKept : Prop :=
  ∀ st j fault epoch op rec, (∀ r, j.row op = some r → r.state ≠ rec.observedState) →
    (transact st j fault (fun j => j.recordRecovery epoch op rec)).2.2 = j

theorem stale_kept : StaleKept := by
  intro st j fault epoch op rec hstale
  rcases hx : transact st j fault (fun j => j.recordRecovery epoch op rec) with ⟨x, st', j'⟩
  obtain ⟨_, ⟨rfl, _⟩ | ⟨⟨⟩, hb, _⟩⟩ := transact_cases hx
  · rfl
  · have hcommit := recordRecovery_ok hb
    exfalso
    cases hcommit with
    | check row hrow hstate => exact hstale row hrow hstate
    | resolved row _ _ hrow hstate => exact hstale row hrow hstate

/-- Every row goes through its states in order, whatever the executors, the recovery
checks and the crashes do, and a stale recovery write does nothing. -/
theorem journal_state_machine {acts : List Action} (h : run step (initial env) acts = some s) :
    Disciplined s ∧ StaleKept := by
  have hreach := reachable_of_run acts h
  have hs := reachable_inv hreach
  have hk := reachable_kept hreach
  refine ⟨⟨hk.reviewed.earlier, hs.durable.flagged, hk.reviewed.tags, ?_, ?_⟩, stale_kept⟩
  · intro a s' k r' hstep hr'
    rcases row_step hs (step_transition hstep) hr' with ⟨r, hr, hrow⟩ | ⟨hnone, _, c, account, uuid, rfl⟩
    · exact .inl ⟨r, hr, hrow.follows hs hk hr⟩
    · exact .inr ⟨hnone, rfl⟩
  · intro as u k r hrun hr
    exact settles_run hreach (free_of_run hrun) hr

/-- A placement whose process dies while the order is under way, and the next start. -/
def crashedRun : List Action := placementStart ++ [.crash, .reopen "epoch-2" .none .none]

theorem crashed_dispatch_reviewed : ∃ s r, run step (initial .simulate) crashedRun = some s ∧
    s.journal.row "operation-1" = some r ∧ r.state = .unknownOutcome ∧ Disciplined s ∧ StaleKept :=
  ⟨_, _, rfl, rfl, rfl, @journal_state_machine .simulate _ crashedRun rfl⟩

end MoomooMcp.System
