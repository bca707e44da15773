import MoomooMcp.Ownership

namespace MoomooMcp.Executor

open ExecutionStore CriticalSection Preparation

variable {sh sh' : Shared} {ph ph' : Phase} {i : Input} {row : Row} {c : Request} {p : Prepared}

theorem ThreadOk.owned (h : ThreadOk sh ph) (hown : ph.own = some row) : Owned sh.journal row := by
  cases ph with
  | admitted | entered | prepared => cases hown; exact ⟨_, h.2.1.stored⟩
  | marked | calling | finishing => cases hown; exact ⟨_, h.2.1⟩
  | refusing =>
      cases hown
      rcases h.2.2 with hfresh | ⟨howned, _⟩
      · exact ⟨_, hfresh.stored⟩
      · exact howned
  | _ => cases hown

/-- Inside the lock, before its outcome is stored, an operation faces no review. -/
theorem ThreadOk.clear (h : ThreadOk sh ph) (hflight : ph.flight = some row) : Clear sh := by
  cases ph with
  | marked => exact h.2.2.2
  | calling => exact h.2.2
  | finishing => exact h.2.2.2.1
  | _ => cases hflight

theorem ThreadOk.dispatching (h : ThreadOk sh ph) (hflight : ph.flight = some row) :
    ∃ r, sh.journal.row row.operationId = some r ∧ r.state = .dispatching ∧ r.marker = true := by
  cases ph with
  | marked | calling | finishing => cases hflight; exact ⟨_, h.2.1, rfl, rfl⟩
  | _ => cases hflight

theorem Clear.quiet (h : Clear sh) (op : OperationId) : ¬sh.journal.pending op := by
  rintro ⟨reason, hr⟩
  rw [h.1] at hr
  exact absurd hr (Finset.notMem_empty _)

/-- An admission that has its row just now. -/
theorem fresh_admitted {epoch : Epoch} {a : Admission} {j j' : Journal} (h : Admits epoch a j j') :
    Fresh j' a.row := by
  refine ⟨(h.rows _).trans (if_pos rfl), ?_⟩
  rintro ⟨reason, hr⟩
  rw [h.rest] at hr
  dsimp only at hr
  rw [h.unblocked] at hr
  exact absurd hr (Finset.notMem_empty _)

theorem Durable.unsent {j : Journal} {starts : List OperationId} (h : Durable j starts) {op : OperationId}
    (hrow : ∀ r, j.row op = some r → r.state = .admitted) : op ∉ starts := by
  intro hs
  obtain ⟨r, hr, _, ha, _⟩ := h.sent op hs
  exact ha (hrow r hr)

theorem Due.current {op : OperationId} {due : ℚ} {n : Snapshot} (h : Due sh op due n) : Current sh.journal n := by
  have hop := row_key h.row
  subst hop
  exact ⟨h.row, h.checks, h.review⟩

theorem Current.blocks {j j' : Journal} {n : Snapshot} {op : OperationId} (h : Current j n) (hb : Blocks op j j') :
    Current j' n := by
  refine ⟨(hb.row _).trans h.stored, ?_, ?_⟩
  · rw [h.checks, hb.eq]
    rfl
  · refine h.review.imp_left ?_
    rintro ⟨reason, hr⟩
    refine ⟨reason, ?_⟩
    rw [hb.eq]
    exact Finset.mem_insert_of_mem hr

theorem threadOk_checked {n : Snapshot} (started : ℚ) (hcurrent : Current sh.journal n)
    (h : (∃ r, ph = .checked r) ∨ ∃ k, ph = .concluding n started k ∧ Concludable sh.environment n k) :
    ThreadOk sh ph := by
  rcases h with ⟨r, rfl⟩ | ⟨k, rfl, hk⟩
  · trivial
  · exact ⟨hcurrent, hk⟩

theorem threadOk_observed {n : Snapshot} {started : ℚ} {orders : Except Exc (List BrokerOrder)}
    (hcurrent : Current sh.journal n) : ThreadOk sh (observe sh.environment n started orders) := by
  have hcases := @observe_cases sh.environment n started orders _ rfl
  rcases hcases with hr | hk | ⟨found, hsighted, ⟨hph, henv, hlate⟩ | ⟨hph, hlate⟩⟩
  · exact threadOk_checked started hcurrent (.inl hr)
  · exact threadOk_checked _ hcurrent (.inr hk)
  · rw [hph]
    exact ⟨hcurrent, henv, hlate, hsighted⟩
  · rw [hph]
    exact ⟨hcurrent, fun henv hn => absurd ⟨henv, hn⟩ hlate⟩

theorem told_unsent (answer : Except Exc Result) : Told none answer :=
  ⟨fun _ _ => rfl, fun _ ha => by cases ha⟩

theorem Quiet.threadOk (h : Quiet sh i ph ph') (hok : ThreadOk sh ph) : ThreadOk sh ph' := by
  cases h with
  | present | queued | admitting | checkReturned | unrecorded => trivial
  | reject | returned => exact told_unsent _
  | entered hready =>
      obtain ⟨_, hl, _, _, hr⟩ := ready_ok hready
      exact ⟨hok.1, hok.2.1, hok.2.2, hr, hl⟩
  | prepared => exact hok
  | refused hph =>
      rcases hph with rfl | rfl | ⟨p, rfl⟩
      · exact ⟨hok.1, hok.2.2, .inl hok.2.1⟩
      · exact ⟨hok.1, hok.2.2.1, .inl hok.2.1⟩
      · exact ⟨hok.1, hok.2.2.1, .inl hok.2.1⟩
  | startFailed =>
      obtain ⟨hadmitted, hflight, hunsent, hclear⟩ := hok
      exact ⟨hadmitted, hflight, fun _ => hunsent, hclear, _, _, rfl, .inr ⟨rfl, rfl⟩⟩
  | answered =>
      obtain ⟨hadmitted, hflight, hclear⟩ := hok
      exact ⟨hadmitted, hflight, fun hn => (by cases hn), hclear, _, _, rfl, .inl rfl⟩
  | checking _ hdue => exact hdue.current
  | notDispatched _ hdue henv => exact ⟨hdue.current, .notDispatched henv⟩
  | observed => exact threadOk_observed hok
  | blockFailed => exact threadOk_checked _ hok.1 (evidenceFailure_cases rfl)
  | accounted => exact threadOk_checked _ hok.1 (account_cases rfl)

/-- No program point looks at the health of the store, except to remember that it failed. -/
theorem ThreadOk.store {st : Store} (h : ThreadOk sh ph) (hst : Degrades sh.store st) :
    ThreadOk { sh with store := st } ph := by
  cases ph with
  | refusing => exact ⟨h.1, h.2.1, h.2.2.imp_right (fun ⟨howned, hfailed⟩ => ⟨howned, hst.failed hfailed⟩)⟩
  | _ => exact h

/-- The moving thread stays in order. -/
theorem Move.threadOk (h : Move sh i ph sh' ph') (hok : ThreadOk sh ph)
    (hd : Durable sh.journal sh.starts) : ThreadOk sh' ph' := by
  have henv := h.environment
  cases h with
  | quiet hquiet hst => exact (hquiet.threadOk hok).store hst
  | admitted hcommit _ _ _ hph =>
      rcases hph with ⟨rfl, _⟩ | ⟨⟨e, rfl⟩, _⟩
      · refine ⟨⟨_, _, by rw [henv]⟩, fresh_admitted hcommit, hd.unsent ?_⟩
        intro r hr
        cases hcommit.fresh.symm.trans hr
      · exact told_unsent _
  | @marked c row p _ _ _ _ _ st j _ hcommit _ _ hph =>
      obtain ⟨hadmitted, hfresh, hunsent, hreviews, hlate⟩ := hok
      have hstored := hfresh.stored
      rcases hph with ⟨rfl, _⟩ | ⟨⟨e, rfl⟩, hfailed⟩
      · refine ⟨by rw [henv]; exact hadmitted, ?_, hunsent, ?_, hlate⟩
        · exact (hcommit.rows _).trans (by rw [hstored, Option.map_some, Row.only_self rfl])
        · dsimp only
          rw [hcommit.rest]
          exact hreviews
      · refine ⟨by rw [henv]; exact hadmitted, hunsent, .inr ⟨?_, hfailed⟩⟩
        obtain ⟨r, hr, _⟩ := hcommit.extends _ _ hstored
        exact ⟨r, hr⟩
  | started =>
      obtain ⟨hadmitted, hflight, _, hclear⟩ := hok
      exact ⟨hadmitted, hflight, hclear⟩
  | finished _ hresult =>
      obtain ⟨_, _, _, _, hanswered⟩ := hok
      exact hanswered.told hresult
  | refused => exact told_unsent _
  | blocked hcommit _ hph =>
      obtain ⟨hcurrent, _⟩ := hok
      have hcurrent' := hcurrent.blocks hcommit
      rcases hph with rfl | ⟨e, rfl⟩
      · refine ⟨hcurrent', fun _ _ => ?_⟩
        dsimp only
        rw [hcommit.eq]
        exact Finset.mem_insert_self _ _
      · rw [← henv]
        exact threadOk_checked _ hcurrent' (evidenceFailure_cases rfl)
  | recorded => trivial

section Frame

variable {n : Snapshot}

theorem Fresh.undisturbed (h : Fresh sh.journal row) (hu : Undisturbed sh sh') : Fresh sh'.journal row :=
  ⟨hu.rows _ _ h.stored, fun hp => h.quiet ((hu.pending _).mp hp)⟩

theorem Clear.undisturbed (h : Clear sh) (hu : Undisturbed sh sh') : Clear sh' :=
  ⟨hu.reviews.trans h.1, hu.late.trans h.2⟩

theorem Current.undisturbed (h : Current sh.journal n) (hu : Undisturbed sh sh') : Current sh'.journal n :=
  ⟨hu.rows _ _ h.stored, h.checks.trans (hu.recoveryChecks _).symm, h.review.imp_left (hu.pending _).mpr⟩

/-- A thread is undisturbed by the steps of threads outside the lock. -/
theorem ThreadOk.undisturbed (h : ThreadOk sh ph) (hu : Undisturbed sh sh') : ThreadOk sh' ph := by
  have henv := hu.environment
  have hstarts := hu.starts
  cases ph with
  | admitted c row =>
      obtain ⟨hadmitted, hfresh, hunsent⟩ := h
      exact ⟨by rw [henv]; exact hadmitted, hfresh.undisturbed hu, by rw [hstarts]; exact hunsent⟩
  | entered c row | prepared c row p =>
      obtain ⟨hadmitted, hfresh, hunsent, hclear⟩ := h
      exact ⟨by rw [henv]; exact hadmitted, hfresh.undisturbed hu, by rw [hstarts]; exact hunsent,
        hclear.undisturbed hu⟩
  | marked c row p =>
      obtain ⟨hadmitted, hflight, hunsent, hclear⟩ := h
      exact ⟨by rw [henv]; exact hadmitted, hu.rows _ _ hflight, by rw [hstarts]; exact hunsent,
        hclear.undisturbed hu⟩
  | calling c row p =>
      obtain ⟨hadmitted, hflight, hclear⟩ := h
      exact ⟨by rw [henv]; exact hadmitted, hu.rows _ _ hflight, hclear.undisturbed hu⟩
  | finishing c row p sdk o =>
      obtain ⟨hadmitted, hflight, hunsent, hclear, hanswered⟩ := h
      exact ⟨by rw [henv]; exact hadmitted, hu.rows _ _ hflight, by rw [hstarts]; exact hunsent,
        hclear.undisturbed hu, by rw [henv]; exact hanswered⟩
  | refusing c row e =>
      obtain ⟨hadmitted, hunsent, hstored⟩ := h
      refine ⟨by rw [henv]; exact hadmitted, by rw [hstarts]; exact hunsent, ?_⟩
      rcases hstored with hfresh | ⟨⟨r, hr⟩, hfailed⟩
      · exact .inl (hfresh.undisturbed hu)
      · exact .inr ⟨⟨r, hu.rows _ _ hr⟩, hu.failed hfailed⟩
  | checking n started => exact h.undisturbed hu
  | correlated n started found => exact ⟨h.1.undisturbed hu, henv.trans h.2.1, h.2.2⟩
  | accounting n started found =>
      refine ⟨h.1.undisturbed hu, fun hs hn => ?_⟩
      rw [hu.reviews]
      exact h.2 (henv.symm.trans hs) hn
  | concluding n started k => exact ⟨h.1.undisturbed hu, by rw [henv]; exact h.2⟩
  | done => exact h
  | idle | validated | queued | admitting | checked => trivial

end Frame

section Commits

variable {j j' : Journal} {op : OperationId} {epoch : Epoch}

theorem Fresh.concludes {o : Outcome} (h : Fresh j row) (hstate : row.state = .admitted)
    (hc : Concludes op o j j') (hother : row.operationId ≠ op) : Fresh j' row := by
  refine ⟨?_, fun hp => ?_⟩
  · rw [hc.rows, h.stored, Option.map_some, concluded_admitted hother hstate]
  · rcases hc.pending.mp hp with ⟨hop, _⟩ | hp
    · exact hother hop
    · exact h.quiet hp

theorem Current.other {n : Snapshot} (h : Current j n) (hfresh : Fresh j row)
    (hdisposition : row.recoveryDisposition = none) : row.operationId ≠ n.row.operationId := by
  intro he
  rcases h.review with hp | hlate
  · exact hfresh.quiet (by rw [he]; exact hp)
  · have hsame := hfresh.stored
    rw [he, h.stored] at hsame
    rw [Option.some.inj hsame, hdisposition] at hlate
    cases hlate

/-- A row no thread has touched since its admission is touched by its own thread only. -/
theorem Move.leaves (h : Move sh i ph sh' ph') (hok : ThreadOk sh ph) {env : Environment}
    (hadmitted : Admitted env c row) (hfresh : Fresh sh.journal row)
    (hother : ∀ r, ph.own = some r → r.operationId ≠ row.operationId) : Fresh sh'.journal row := by
  have hstate := hadmitted.state
  cases h with
  | quiet | started => exact hfresh
  | @admitted c account uuid _ _ st j _ hcommit =>
      have hk : row.operationId ≠ (admission sh.environment c account uuid).operationId := by
        intro he
        have hnone := hcommit.fresh
        rw [← he, hfresh.stored] at hnone
        cases hnone
      refine ⟨(hcommit.rows _).trans ((if_neg hk).trans hfresh.stored), fun ⟨reason, hr⟩ => ?_⟩
      dsimp only at hr
      rw [hcommit.rest] at hr
      exact hfresh.quiet ⟨reason, hr⟩
  | marked hcommit =>
      have hk := hother _ rfl
      refine ⟨?_, fun ⟨reason, hr⟩ => ?_⟩
      · exact (hcommit.rows _).trans (by rw [hfresh.stored, Option.map_some, Row.only_other hk.symm])
      · dsimp only at hr
        rw [hcommit.rest] at hr
        exact hfresh.quiet ⟨reason, hr⟩
  | finished _ _ hstored =>
      have hk := (hother _ rfl).symm
      rcases hstored with ⟨hc, _⟩ | ⟨rfl | hc, _⟩
      · exact hfresh.concludes hstate hc hk
      · exact hfresh
      · exact hfresh.concludes hstate hc hk
  | refused _ hstored =>
      have hk := (hother _ rfl).symm
      rcases hstored with rfl | ⟨_, _, hc⟩
      · exact hfresh
      · exact hfresh.concludes hstate hc hk
  | blocked hcommit =>
      have hk := hok.1.other hfresh hadmitted.recoveryDisposition
      refine ⟨(hcommit.row _).trans hfresh.stored, fun ⟨reason, hr⟩ => ?_⟩
      dsimp only at hr
      rw [hcommit.eq] at hr
      rcases Finset.mem_insert.mp hr with he | hr
      · exact hk (Prod.mk.inj he).1
      · exact hfresh.quiet ⟨reason, hr⟩
  | recorded hcommit =>
      have hk := hok.1.other hfresh hadmitted.recoveryDisposition
      obtain ⟨hrow, hpending⟩ := hcommit.other hk
      exact ⟨hrow.trans hfresh.stored, fun hp => hfresh.quiet (hpending.mp hp)⟩

/-- A thread waiting for the lock is not disturbed by the one inside it, which
works on another operation. -/
theorem ThreadOk.waiting {other : Phase} (h : ThreadOk sh other) (hout : other.inLock = false)
    (hmove : Move sh i ph sh' ph') (hok : ThreadOk sh ph)
    (hdistinct : ∀ row row', ph.own = some row → other.own = some row' → row.operationId ≠ row'.operationId) :
    ThreadOk sh' other := by
  cases other with
  | admitted c row =>
      obtain ⟨hadmitted, hfresh, hunsent⟩ := h
      refine ⟨by rw [hmove.environment]; exact hadmitted,
        hmove.leaves hok hadmitted hfresh (fun r hr => hdistinct r row hr rfl), ?_⟩
      rcases hmove.starts with hs | ⟨c', row', p, rfl, _, hs⟩
      · rw [hs]; exact hunsent
      · rw [hs, List.mem_append, List.mem_singleton, not_or]
        exact ⟨hunsent, fun he => hdistinct row' row rfl rfl he.symm⟩
  | done => exact h
  | idle | validated | queued | admitting | checked => trivial
  | _ => cases hout

end Commits

end MoomooMcp.Executor
