import MoomooMcp.Preservation

namespace MoomooMcp.Executor

open ExecutionStore CriticalSection

variable {j j' : Journal} {starts : List OperationId} {op : OperationId} {epoch : Epoch}

/-- A commit that maps every row, takes no started operation back to where
nothing was sent, and leaves no unknown outcome without a review. -/
theorem Durable.of_map {f : Row → Row} (h : Durable j starts) (hrows : ∀ k, j'.row k = (j.row k).map f)
    (hf : ∀ r : Row, r.Descends (f r))
    (hsent : ∀ k ∈ starts, ∀ r, j.row k = some r → r.state ≠ .admitted → r.state ≠ .refused →
      (f r).state ≠ .admitted ∧ (f r).state ≠ .refused)
    (hflagged : ∀ k r, j.row k = some r → (f r).state = .unknownOutcome → (f r).recoveryDisposition = none →
      j'.pending k) : Durable j' starts := by
  refine ⟨fun k hk => ?_, h.once, fun k r' hr' hstate hnone => ?_⟩
  · obtain ⟨r, hr, hm, ha, hs⟩ := h.sent k hk
    obtain ⟨ha', hs'⟩ := hsent k hk r hr ha hs
    exact ⟨f r, by rw [hrows, hr]; rfl, (hf r).marker hm, ha', hs'⟩
  · rw [hrows, Option.map_eq_some_iff] at hr'
    obtain ⟨r, hr, rfl⟩ := hr'
    exact hflagged k r hr hstate hnone

/-- A commit that only adds reviews. -/
theorem Durable.reviewed (h : Durable j starts) (hrows : ∀ k, j'.row k = j.row k)
    (hreviews : j.reviews ⊆ j'.reviews) : Durable j' starts := by
  refine ⟨fun k hk => ?_, h.once, fun k r hr hstate hnone => ?_⟩
  · rw [hrows]
    exact h.sent k hk
  · rw [hrows] at hr
    obtain ⟨reason, hreason⟩ := h.flagged k r hr hstate hnone
    exact ⟨reason, hreviews hreason⟩

theorem Durable.blocks (h : Durable j starts) (hc : Blocks op j j') : Durable j' starts := by
  refine h.reviewed hc.row ?_
  rw [hc.eq]
  exact Finset.subset_insert _ _

theorem Durable.reviews (h : Durable j starts) (hc : Reviews j j') : Durable j' starts :=
  h.reviewed hc.row (fun _ hp => (hc.reviews _ _).mpr (.inl hp))

theorem Durable.admits {a : Admission} (h : Durable j starts) (hc : Admits epoch a j j') : Durable j' starts := by
  have hreviews : j'.reviews = j.reviews := by rw [hc.rest]
  have hother : ∀ k r, j.row k = some r → j'.row k = some r := by
    intro k r hr
    have hk : k ≠ a.operationId := by
      rintro rfl
      cases hc.fresh.symm.trans hr
    rw [hc.rows, if_neg hk, hr]
  refine ⟨fun k hk => ?_, h.once, fun k r hr hstate hnone => ?_⟩
  · obtain ⟨r, hr, hrest⟩ := h.sent k hk
    exact ⟨r, hother k r hr, hrest⟩
  · rw [hc.rows] at hr
    split at hr
    · cases hr
      cases hstate
    · obtain ⟨reason, hreason⟩ := h.flagged k r hr hstate hnone
      exact ⟨reason, by rw [hreviews]; exact hreason⟩

theorem Durable.marks {merged : Params} (h : Durable j starts) (hc : Marks op merged j j') : Durable j' starts := by
  obtain ⟨w, hw, hwait⟩ := hc.waiting
  have hreviews : j'.reviews = j.reviews := by rw [hc.rest]
  refine h.of_map hc.rows (Row.only_descends (Row.markDispatch_descends merged)) ?_ ?_
  · intro k _ r hr ha hs
    have hk : r.operationId ≠ op := by
      intro he
      rw [← he, row_key hr, hr] at hw
      cases hw
      exact ha hwait
    rw [Row.only_other hk]
    exact ⟨ha, hs⟩
  · intro k r hr hstate hnone
    by_cases hk : r.operationId = op
    · rw [Row.only_self hk] at hstate
      cases hstate
    · rw [Row.only_other hk] at hstate hnone
      obtain ⟨reason, hreason⟩ := h.flagged k r hr hstate hnone
      exact ⟨reason, by rw [hreviews]; exact hreason⟩

theorem Durable.concludes {o : Outcome} (h : Durable j starts) (hc : Concludes op o j j')
    (hop : op ∈ starts → o.state ≠ .admitted ∧ o.state ≠ .refused)
    (hreason : o.state = .unknownOutcome → o.reason ≠ none) : Durable j' starts := by
  refine h.of_map hc.rows (Row.concluded_descends op o) ?_ ?_
  · intro k hk r hr ha hs
    by_cases he : r.operationId = op
    · rw [concluded_state he]
      exact hop (by rw [← he, row_key hr]; exact hk)
    · rw [concluded_other_state he]
      exact ⟨ha, hs⟩
  · intro k r hr hstate hnone
    by_cases he : r.operationId = op
    · rw [concluded_state he] at hstate
      exact hc.pending.mpr (.inl ⟨(row_key hr).symm.trans he, hreason hstate⟩)
    · rw [concluded_other_state he] at hstate
      rw [concluded_recoveryDisposition] at hnone
      exact hc.pending.mpr (.inr (h.flagged k r hr hstate hnone))

theorem recorded_state {rec : Recovery} (r : Row) : (Row.only op (Row.recordCheck rec) r).state = r.state := by
  unfold Row.only
  split <;> rfl

theorem Durable.recordCheck {rec : Recovery} (h : Durable j starts) : Durable (j.recordCheck op rec) starts := by
  refine h.of_map (row_recordCheck rec) (Row.only_descends (Row.recordCheck_descends rec)) ?_ ?_
  · intro k _ r _ ha hs
    rw [recorded_state]
    exact ⟨ha, hs⟩
  · intro k r hr hstate hnone
    rw [recorded_state] at hstate
    have hsame : r.recoveryDisposition = none := by
      unfold Row.only at hnone
      split at hnone <;> exact hnone
    exact h.flagged k r hr hstate hsame

theorem Durable.records {rec : Recovery} (h : Durable j starts) (hc : Records epoch op rec j j') :
    Durable j' starts := by
  cases hc with
  | check => exact h.recordCheck
  | resolved row resolution target hrow _ _ htarget =>
      have hcheck : Durable (j.recordCheck op rec) starts := h.recordCheck
      refine hcheck.of_map (row_resolve rec resolution target _)
        (Row.only_descends (Row.resolve_descends _ _ _)) ?_ ?_
      · intro k _ r hr ha hs
        by_cases he : r.operationId = op
        · rw [Row.only_self he]
          have hstate : r.state = row.state := by
            have hk : k = op := (row_key hr).symm.trans he
            rw [row_recordCheck, hk, hrow] at hr
            cases hr
            exact recorded_state row
          rcases disposition_state htarget with ht | ht | ht | ⟨_, hadmitted, _⟩
          · simp [Row.resolve, ht]
          · simp [Row.resolve, ht]
          · simp [Row.resolve, ht]
          · exact absurd (hstate.trans hadmitted) ha
        · rw [Row.only_other he]
          exact ⟨ha, hs⟩
      · intro k r hr hstate hnone
        by_cases he : r.operationId = op
        · rw [Row.only_self he] at hnone
          cases hnone
        · rw [Row.only_other he] at hstate hnone
          obtain ⟨reason, hreason⟩ := hcheck.flagged k r hr hstate hnone
          have hk : k ≠ op := fun hk => he ((row_key hr).trans hk)
          exact ⟨reason, Finset.mem_filter.mpr ⟨hreason, hk⟩⟩

theorem Durable.startup (h : Durable j starts) (hc : Startup epoch j j') : Durable j' starts := by
  refine h.of_map hc.rows Row.recoverDispatch_descends ?_ ?_
  · intro k _ r _ ha hs
    unfold Row.recoverDispatch
    split
    · simp
    · exact ⟨ha, hs⟩
  · intro k r hr hstate hnone
    have hr' : j'.row k = some r.recoverDispatch := by rw [hc.rows, hr]; rfl
    refine ⟨.startupReview, (hc.reviews _ _).mpr (.inr (.inr ⟨rfl, _, hr', ?_⟩))⟩
    simp [Row.awaitsReview, hstate, hnone]

variable {sh sh' : Shared} {ph ph' : Phase} {i : Input} {row : Row}

theorem Move.durable (h : Move sh i ph sh' ph') (hok : ThreadOk sh ph) (hd : Durable sh.journal sh.starts) :
    Durable sh'.journal sh'.starts := by
  cases h with
  | quiet => exact hd
  | admitted hcommit => exact hd.admits hcommit
  | marked hcommit => exact hd.marks hcommit
  | @started c row p =>
      obtain ⟨_, hflight, hunsent, _⟩ := hok
      refine ⟨fun k hk => ?_, ?_, hd.flagged⟩
      · rw [List.mem_append, List.mem_singleton] at hk
        rcases hk with hk | rfl
        · exact hd.sent k hk
        · exact ⟨_, hflight, rfl, by simp [Row.markDispatch], by simp [Row.markDispatch]⟩
      · exact hd.once.append (List.nodup_singleton _) (List.disjoint_singleton.mpr hunsent)
  | finished _ _ hstored =>
      obtain ⟨_, _, _, _, hanswered⟩ := hok
      obtain ⟨ha, hs, _⟩ := hanswered.sent
      rcases hstored with ⟨hc, _⟩ | ⟨rfl | hc, _⟩
      · exact hd.concludes hc (fun _ => ⟨ha, hs⟩) hanswered.reviewed
      · exact hd
      · exact hd.concludes hc (fun _ => ⟨ha, hs⟩) hanswered.reviewed
  | refused _ hstored =>
      obtain ⟨_, hunsent, _⟩ := hok
      rcases hstored with rfl | ⟨_, _, hc⟩
      · exact hd
      · exact hd.concludes hc (fun hs => absurd hs hunsent) (fun hs => by cases hs)
  | blocked hcommit => exact hd.blocks hcommit
  | recorded hcommit => exact hd.records hcommit

theorem Move.late (h : Move sh i ph sh' ph') {f : LateFailure} (hf : f ∈ sh.late) : f ∈ sh'.late := by
  cases h with
  | quiet | admitted | marked | started | blocked | recorded => exact hf
  | finished _ _ hstored =>
      rcases hstored with ⟨_, rfl⟩ | ⟨_, rfl⟩
      · exact hf
      · exact List.mem_cons_of_mem _ hf
  | refused _ _ hlate =>
      rcases hlate with rfl | ⟨_, rfl, _⟩
      · exact hf
      · exact List.mem_cons_of_mem _ hf

theorem concludes_dispatching {o : Outcome} (hc : Concludes op o j j') (ho : o.state ≠ .dispatching)
    {k : OperationId} {r' : Row} (hr' : j'.row k = some r') (hs : r'.state = .dispatching) :
    k ≠ op ∧ ∃ r, j.row k = some r ∧ r.state = .dispatching := by
  rw [hc.rows, Option.map_eq_some_iff] at hr'
  obtain ⟨r, hr, rfl⟩ := hr'
  have hk : r.operationId ≠ op := by
    intro he
    rw [concluded_state he] at hs
    exact ho hs
  rw [concluded_other_state hk] at hs
  exact ⟨by rw [← row_key hr]; exact hk, r, hr, hs⟩

theorem records_dispatching {rec : Recovery} (hc : Records epoch op rec j j') {k : OperationId} {r' : Row}
    (hr' : j'.row k = some r') (hs : r'.state = .dispatching) : ∃ r, j.row k = some r ∧ r.state = .dispatching := by
  have hcheck : ∀ r₁, (j.recordCheck op rec).row k = some r₁ → r₁.state = .dispatching →
      ∃ r, j.row k = some r ∧ r.state = .dispatching := by
    intro r₁ h₁ hs₁
    rw [row_recordCheck, Option.map_eq_some_iff] at h₁
    obtain ⟨r, hr, rfl⟩ := h₁
    rw [recorded_state] at hs₁
    exact ⟨r, hr, hs₁⟩
  cases hc with
  | check => exact hcheck r' hr' hs
  | resolved row resolution target _ _ _ htarget =>
      rw [row_resolve, Option.map_eq_some_iff] at hr'
      obtain ⟨r₁, h₁, rfl⟩ := hr'
      by_cases he : r₁.operationId = op
      · rw [Row.only_self he] at hs
        have hne : target.1 ≠ .dispatching := by
          rcases disposition_state htarget with ht | ht | ht | ⟨ht, _⟩ <;> simp [ht]
        exact absurd hs hne
      · rw [Row.only_other he] at hs
        exact hcheck r₁ h₁ hs

/-- A row in dispatch was so before, unless this step wrote its marker. -/
theorem Move.dispatching (h : Move sh i ph sh' ph') (hok : ThreadOk sh ph) {k : OperationId} {r' : Row}
    (hr' : sh'.journal.row k = some r') (hs : r'.state = .dispatching) :
    (∃ r, sh.journal.row k = some r ∧ r.state = .dispatching) ∨
      ∃ c row p, ph = .prepared c row p ∧ row.operationId = k ∧
        (ph' = .marked c row p ∨ sh'.store.failed ≠ none) := by
  cases h with
  | quiet | started => exact .inl ⟨r', hr', hs⟩
  | admitted hcommit =>
      dsimp only at hr'
      rw [hcommit.rows] at hr'
      split at hr'
      · cases hr'; cases hs
      · exact .inl ⟨r', hr', hs⟩
  | @marked c row p _ _ _ _ _ st _ _ hcommit _ _ hph =>
      dsimp only at hr'
      rw [hcommit.rows, Option.map_eq_some_iff] at hr'
      obtain ⟨r, hr, rfl⟩ := hr'
      by_cases he : r.operationId = row.operationId
      · exact .inr ⟨c, row, p, rfl, he.symm.trans (row_key hr), hph.imp And.left And.right⟩
      · rw [Row.only_other he] at hs
        exact .inl ⟨r, hr, hs⟩
  | finished _ _ hstored =>
      obtain ⟨_, _, _, _, hanswered⟩ := hok
      have hne := hanswered.sent.2.2
      rcases hstored with ⟨hc, _⟩ | ⟨rfl | hc, _⟩
      · exact .inl (concludes_dispatching hc hne hr' hs).2
      · exact .inl ⟨r', hr', hs⟩
      · exact .inl (concludes_dispatching hc hne hr' hs).2
  | refused _ hstored =>
      rcases hstored with rfl | ⟨_, _, hc⟩
      · exact .inl ⟨r', hr', hs⟩
      · exact .inl (concludes_dispatching hc (by simp [refusedOutcome]) hr' hs).2
  | blocked hcommit => exact .inl ⟨r', by rw [← hcommit.row]; exact hr', hs⟩
  | recorded hcommit => exact .inl (records_dispatching hcommit hr' hs)

/-- A thread that owes an outcome keeps owing it, keeps it as a late failure, or has stored it. -/
theorem Move.flight (h : Move sh i ph sh' ph') (hok : ThreadOk sh ph) (hflight : ph.flight = some row) :
    ph'.flight = some row ∨ (∃ f ∈ sh'.late, f.result.operationId = row.operationId) ∨
      ∀ r', sh'.journal.row row.operationId = some r' → r'.state ≠ .dispatching := by
  cases h with
  | quiet hquiet =>
      cases hquiet with
      | present hrest | reject hrest | checking hrest | notDispatched hrest | checkReturned hrest =>
          have hnone := own_of_resting hrest
          rw [own_of_flight hflight] at hnone
          cases hnone
      | returned hph => rcases hph with rfl | rfl | rfl <;> cases hflight
      | refused hph => rcases hph with rfl | rfl | ⟨p, rfl⟩ <;> cases hflight
      | startFailed | answered => exact .inl hflight
      | queued | admitting | entered | prepared | observed | blockFailed | accounted | unrecorded => cases hflight
  | started => exact .inl hflight
  | finished _ hresult hstored =>
      cases hflight
      obtain ⟨_, _, _, _, hanswered⟩ := hok
      rcases hstored with ⟨hc, _⟩ | ⟨_, rfl⟩
      · right; right
        intro r' hr' hs
        exact (concludes_dispatching hc hanswered.sent.2.2 hr' hs).1 rfl
      · exact .inr (.inl ⟨_, List.mem_cons_self, hresult.operationId⟩)
  | admitted | marked | refused | blocked | recorded => cases hflight

theorem Move.explained {threads : Tid → Phase} {t : Tid} (h : Move sh i (threads t) sh' ph')
    (hok : ThreadOk sh (threads t))
    (hexplained : ∀ k r, sh.journal.row k = some r → r.state = .dispatching →
      Explained sh.store sh.late threads k) {k : OperationId} {r' : Row}
    (hr' : sh'.journal.row k = some r') (hs : r'.state = .dispatching) :
    Explained sh'.store sh'.late (Function.update threads t ph') k := by
  rcases h.dispatching hok hr' hs with ⟨r, hr, hdisp⟩ | ⟨c, row, p, _, hk, hph | hfailed⟩
  · rcases hexplained k r hr hdisp with hfailed | ⟨f, hf, hk⟩ | ⟨u, row, hu, hk⟩
    · exact .inl (h.degrades.failed hfailed)
    · exact .inr (.inl ⟨f, h.late hf, hk⟩)
    · by_cases hut : u = t
      · subst u
        rcases h.flight hok hu with hflight | ⟨f, hf, hop⟩ | hstored
        · exact .inr (.inr ⟨t, row, by rw [Function.update_self]; exact hflight, hk⟩)
        · exact .inr (.inl ⟨f, hf, hop.trans hk⟩)
        · exact absurd hs (hstored r' (by rw [hk]; exact hr'))
      · exact .inr (.inr ⟨u, row, by rw [Function.update_of_ne hut]; exact hu, hk⟩)
  · exact .inr (.inr ⟨t, row, by rw [Function.update_self, hph]; rfl, hk⟩)
  · exact .inl hfailed

end MoomooMcp.Executor
