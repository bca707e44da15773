import MoomooMcp.AtMostOnce

namespace MoomooMcp.System

open ExecutionStore Executor Machine

/-- The step commits a resolution of the operation. -/
def Resolves (op : OperationId) (s s' : Sys) : Prop :=
  ∃ audit, s'.journal.audits = s.journal.audits ++ [audit] ∧ audit.operationId = op

/-- The step ends an SDK write without a known outcome, or with a receipt nobody could read. -/
def EndsUnresolved (op : OperationId) (s : Sys) (a : Action) : Prop :=
  ∃ p t c row q sdk o fault fault', s.process = some p ∧ a = .thread t (.finish fault fault') ∧
    p.threads t = .finishing c row q sdk o ∧ row.operationId = op ∧
    (o.state = .unknownOutcome ∨ o.reason = some .receiptUnreadable)

/-- The outcome of the operation is open, and no thread is about to settle it. -/
structure Unsettled (op : OperationId) (s : Sys) : Prop where
  outcome : s.journal.pending op ∨ ∃ r, s.journal.row op = some r ∧ r.state = .dispatching
  alone : ∀ p t row, s.process = some p → (p.threads t).flight = some row → row.operationId ≠ op

variable {env : Environment} {s s' : Sys} {a : Action} {op : OperationId} {p : Process} {t : Tid}

/-- Whoever is about to write a marker is the only one with an operation under way. -/
theorem prepared_alone (hs : Inv s) (hp : s.process = some p) {c : Request} {row : Row}
    {q : Preparation.Prepared} (hph : p.threads t = .prepared c row q) (hopen : p.store.failed = none) :
    s.journal.reviews = ∅ ∧ p.late = [] ∧ ∀ k r, s.journal.row k = some r → r.state ≠ .dispatching := by
  have hok := hs.process p hp
  have hthread := hok.threads t
  rw [hph] at hthread
  obtain ⟨_, _, _, hreviews, hlate⟩ := hthread
  refine ⟨hreviews, hlate, fun k r hr hstate => ?_⟩
  rcases hok.explained k r hr hstate with hfailed | ⟨f, hf, _⟩ | ⟨u, row', hu, _⟩
  · exact hfailed hopen
  · have hnil : p.late = [] := hlate
    rw [hnil] at hf
    cases hf
  · have hut : u = t := hok.lock.unique (inLock_of_flight hu) (by rw [hph]; rfl)
    rw [hut, hph] at hu
    cases hu

theorem marks_clear (hs : Inv s) (h : Transition s a s') (hnew : s'.journal.markers ≠ s.journal.markers) :
    ∃ op, s'.journal.markers = s.journal.markers ++ [op] ∧ s.journal.reviews = ∅ ∧
      (∀ p, s.process = some p → p.late = []) ∧ ∀ k r, s.journal.row k = some r → r.state ≠ .dispatching := by
  cases h with
  | @thread p t i sh ph _ _ hp _ hmove =>
      rcases hmove.markers with hsame | ⟨c, row, q, hph, hopen, hcommit⟩
      · exact absurd hsame hnew
      · obtain ⟨hreviews, hlate, hnone⟩ := prepared_alone hs hp hph hopen
        refine ⟨row.operationId, by dsimp only; rw [hcommit.rest]; rfl, hreviews, ?_, hnone⟩
        intro p' hp'
        rw [hp] at hp'
        cases hp'
        exact hlate
  | crash | unopened => exact absurd rfl hnew
  | unreviewed _ hstartup => exact absurd (by dsimp only; rw [hstartup.rest]) hnew
  | reviewed _ hstartup hreview => exact absurd (by dsimp only; rw [hreview.rest, hstartup.rest]) hnew
  | opened _ hstartup hreview => exact absurd (by dsimp only; rw [hreview.rest, hstartup.rest]) hnew

theorem unsettled_of_pending (hs : Inv s) (h : s.journal.pending op) : Unsettled op s := by
  refine ⟨.inl h, fun p t row hp hflight hop => ?_⟩
  have hclear := ((hs.process p hp).threads t).clear hflight
  exact hclear.quiet op h

/-- The outcome of an unsettled operation stays open through every commit but its own resolution. -/
theorem outcome_move {sh sh' : Shared} {i : Input} {ph ph' : Phase} (h : Move sh i ph sh' ph')
    (hok : ThreadOk sh ph)
    (hunresolved : ¬∃ audit, sh'.journal.audits = sh.journal.audits ++ [audit] ∧ audit.operationId = op)
    (hsame : sh'.journal.markers = sh.journal.markers)
    (halone : ∀ row, ph.flight = some row → row.operationId ≠ op)
    (ho : sh.journal.pending op ∨ ∃ r, sh.journal.row op = some r ∧ r.state = .dispatching) :
    sh'.journal.pending op ∨ ∃ r, sh'.journal.row op = some r ∧ r.state = .dispatching := by
  have hconcluded : ∀ {row : Row} {o : Outcome} {j : Journal}, Concludes row.operationId o sh.journal j →
      row.operationId ≠ op → j.pending op ∨ ∃ r, j.row op = some r ∧ r.state = .dispatching := by
    intro row o j hc hne
    rcases ho with hp | ⟨r, hr, hstate⟩
    · exact .inl (hc.pending.mpr (.inr hp))
    · have hk : r.operationId ≠ row.operationId := by rw [row_key hr]; exact hne.symm
      exact .inr ⟨_, by rw [hc.rows, hr]; rfl, by rw [concluded_other_state hk]; exact hstate⟩
  cases h with
  | quiet | started => exact ho
  | admitted hcommit =>
      refine ho.imp (fun ⟨reason, hr⟩ => ⟨reason, ?_⟩) (fun ⟨r, hr, hstate⟩ => ⟨r, ?_, hstate⟩)
      · dsimp only
        rw [hcommit.rest]
        exact hr
      · refine (hcommit.rows op).trans ?_
        split
        · next hk => rw [hk, hcommit.fresh] at hr; cases hr
        · exact hr
  | marked hcommit =>
      dsimp only at hsame
      rw [hcommit.rest] at hsame
      simp at hsame
  | finished _ _ hstored =>
      have hne := halone _ rfl
      rcases hstored with ⟨hc, _⟩ | ⟨rfl | hc, _⟩
      · exact hconcluded hc hne
      · exact ho
      · exact hconcluded hc hne
  | @refused _ row _ _ _ _ _ _ _ _ hstored =>
      obtain ⟨hadmitted, _, hrow⟩ := hok
      rcases hstored with rfl | ⟨hopen, _, hc⟩
      · exact ho
      · have hfresh : Fresh sh.journal row := hrow.resolve_right (fun ⟨_, hfailed⟩ => hfailed hopen)
        refine hconcluded hc ?_
        rintro rfl
        rcases ho with hp | ⟨r, hr, hstate⟩
        · exact hfresh.quiet hp
        · rw [hfresh.stored] at hr
          cases hr
          rw [hadmitted.state] at hstate
          cases hstate
  | blocked hcommit =>
      refine ho.imp (fun ⟨reason, hr⟩ => ⟨reason, ?_⟩) (fun ⟨r, hr, hstate⟩ => ⟨r, ?_, hstate⟩)
      · dsimp only
        rw [hcommit.eq]
        exact Finset.mem_insert_of_mem hr
      · exact (hcommit.row op).trans hr
  | @recorded n _ _ _ _ _ _ _ _ hcommit =>
      by_cases hk : op = n.row.operationId
      · cases hcommit with
        | check =>
            refine ho.imp id (fun ⟨r, hr, hstate⟩ => ?_)
            exact ⟨_, (row_recordCheck _ op).trans (by rw [hr]; rfl), (recorded_state r).trans hstate⟩
        | resolved row _ _ hrow =>
            exact absurd ⟨_, rfl, (row_key hrow).trans hk.symm⟩ hunresolved
      · obtain ⟨hrow, hpending⟩ := hcommit.other hk
        exact ho.imp hpending.mpr (fun ⟨r, hr, hstate⟩ => ⟨r, hrow.trans hr, hstate⟩)

theorem unsettled_startup {j : Journal} {epoch : Epoch} (hc : Startup epoch s.journal j)
    (ho : s.journal.pending op ∨ ∃ r, s.journal.row op = some r ∧ r.state = .dispatching) : j.pending op := by
  rcases ho with ⟨reason, hr⟩ | ⟨r, hr, hstate⟩
  · exact ⟨reason, (hc.reviews _ _).mpr (.inl hr)⟩
  · exact ⟨.recoveredDispatch, (hc.reviews _ _).mpr (.inr (.inl ⟨rfl, r, hr, hstate⟩))⟩

/-- While an operation is unsettled nothing is dispatched, and only a resolution settles it. -/
theorem unsettled_step (hs : Inv s) (h : Transition s a s') (hunresolved : ¬Resolves op s s')
    (hu : Unsettled op s) : Unsettled op s' ∧ s'.journal.markers = s.journal.markers := by
  have hsame : s'.journal.markers = s.journal.markers := by
    by_contra hnew
    obtain ⟨_, _, hreviews, _, hnone⟩ := marks_clear hs h hnew
    rcases hu.outcome with ⟨reason, hr⟩ | ⟨r, hr, hstate⟩
    · rw [hreviews] at hr
      exact absurd hr (Finset.notMem_empty _)
    · exact hnone op r hr hstate
  have hreview : ∀ {j j' : Journal}, Reviews j j' → j.pending op → j'.pending op :=
    fun hc ⟨reason, hr⟩ => ⟨reason, (hc.reviews _ _).mpr (.inl hr)⟩
  refine ⟨?_, hsame⟩
  cases h with
  | @thread p t i sh ph _ _ hp _ hmove =>
      have hok := (hs.process p hp).threads t
      refine ⟨outcome_move hmove hok hunresolved hsame (fun row hf => hu.alone p t row hp hf) hu.outcome, ?_⟩
      rintro q u row hq hflight
      cases hq
      dsimp only at hflight
      by_cases hut : u = t
      · subst u
        rw [Function.update_self] at hflight
        rcases hmove.flight_of hflight with hold | hnew
        · exact hu.alone p t row hp hold
        · exact absurd hsame hnew
      · rw [Function.update_of_ne hut] at hflight
        exact hu.alone p u row hp hflight
  | crash => exact ⟨hu.outcome, fun _ _ _ hq => by cases hq⟩
  | unopened => exact hu
  | unreviewed hp hstartup =>
      exact ⟨.inl (unsettled_startup hstartup hu.outcome), fun _ _ _ hq => by rw [hp] at hq; cases hq⟩
  | reviewed hp hstartup hc =>
      exact ⟨.inl (hreview hc (unsettled_startup hstartup hu.outcome)),
        fun _ _ _ hq => by rw [hp] at hq; cases hq⟩
  | opened _ hstartup hc =>
      refine ⟨.inl (hreview hc (unsettled_startup hstartup hu.outcome)), ?_⟩
      rintro q u row hq hflight
      cases hq
      cases hflight

/-- Along a run that never resolves the operation nothing is dispatched. -/
theorem unsettled_path {acts : List Action} (hs : Inv s) (hu : Unsettled op s)
    (h : Path step (fun s _ s' => ¬Resolves op s s') s acts s') : s'.journal.markers = s.journal.markers := by
  have hinv : (Inv s' ∧ Unsettled op s') ∧ s'.journal.markers = s.journal.markers :=
    h.invariant (P := fun u => (Inv u ∧ Unsettled op u) ∧ u.journal.markers = s.journal.markers) ⟨⟨hs, hu⟩, rfl⟩
      (fun u a v ⟨⟨hi, hunsettled⟩, hsame⟩ hstep hok => by
        have htransition := step_transition hstep
        obtain ⟨hunsettled', hmarkers⟩ := unsettled_step hi htransition hok hunsettled
        exact ⟨⟨inv_step hi htransition, hunsettled'⟩, hmarkers.trans hsame⟩)
  exact hinv.2

/-- The end of an unresolved SDK write leaves its operation unsettled, whether or
not the outcome could be stored. -/
theorem unsettled_of_ends (hs : Inv s) (h : Transition s a s') (hends : EndsUnresolved op s a) : Unsettled op s' := by
  obtain ⟨p, t, c, row, q, sdk, o, fault, fault', hp, rfl, hph, rfl, ho⟩ := hends
  have hok := hs.process p hp
  have hthread := hok.threads t
  rw [hph] at hthread
  obtain ⟨hadmitted, hflight, _, _, hanswered⟩ := hthread
  have hreason : o.reason ≠ none := by
    rcases ho with ho | ho
    · exact hanswered.reviewed ho
    · simp [ho]
  cases h with
  | @thread p' _ _ sh ph _ _ hp' _ hmove =>
      rw [hp] at hp'
      cases hp'
      rw [hph] at hmove
      cases hmove with
      | quiet hquiet => cases hquiet <;> simp_all
      | finished _ _ hstored =>
          refine ⟨?_, ?_⟩
          · rcases hstored with ⟨hc, _⟩ | ⟨rfl | hc, _⟩
            · exact .inl (hc.pending.mpr (.inl ⟨rfl, hreason⟩))
            · exact .inr ⟨_, hflight, rfl⟩
            · exact .inl (hc.pending.mpr (.inl ⟨rfl, hreason⟩))
          · rintro r u row' hr hu
            cases hr
            dsimp only at hu
            by_cases hut : u = t
            · subst u
              rw [Function.update_self] at hu
              cases hu
            · rw [Function.update_of_ne hut] at hu
              exact absurd (hok.lock.unique (inLock_of_flight hu) (by rw [hph]; rfl)) hut

/-- An unresolved outcome blocks every later dispatch. A marker is committed only
when no review is outstanding, no outcome waits to be stored and no operation is
in dispatch; two SDK writes are never under way together; and from an unknown or
unreadable outcome on nothing is dispatched before a resolution of it is committed. -/
theorem unresolved_blocks_dispatch (h : Reachable env free s) :
    (∀ a s', step s a = some s' → s'.journal.markers ≠ s.journal.markers →
      ∃ op, s'.journal.markers = s.journal.markers ++ [op] ∧ s.journal.reviews = ∅ ∧
        (∀ p, s.process = some p → p.late = []) ∧ ∀ k r, s.journal.row k = some r → r.state ≠ .dispatching) ∧
    (∀ p t u c c' row row' q q', s.process = some p → p.threads t = .calling c row q →
      p.threads u = .calling c' row' q' → t = u) ∧
    (∀ a s₁ op acts s', step s a = some s₁ → EndsUnresolved op s a →
      Path step (fun s _ s' => ¬Resolves op s s') s₁ acts s' → s'.journal.markers = s₁.journal.markers) ∧
    (∀ op acts s', (s.journal.pending op ∨ ∃ r, s.journal.row op = some r ∧ r.state = .unknownOutcome ∧
        r.recoveryDisposition = none) →
      Path step (fun s _ s' => ¬Resolves op s s') s acts s' → s'.journal.markers = s.journal.markers) := by
  have hs := reachable_inv h
  refine ⟨fun a s' hstep hnew => marks_clear hs (step_transition hstep) hnew, ?_, ?_, ?_⟩
  · intro p t u c c' row row' q q' hp ht hu
    have hok := hs.process p hp
    exact hok.lock.unique (by rw [ht]; rfl) (by rw [hu]; rfl)
  · intro a s₁ op acts s' hstep hends hpath
    have htransition := step_transition hstep
    exact unsettled_path (inv_step hs htransition) (unsettled_of_ends hs htransition hends) hpath
  · intro op acts s' hopen hpath
    have hpending : s.journal.pending op := by
      rcases hopen with hp | ⟨r, hr, hstate, hnone⟩
      · exact hp
      · exact hs.durable.flagged op r hr hstate hnone
    exact unsettled_path hs (unsettled_of_pending hs hpending) hpath

/-- A placement whose SDK write raised. -/
def unknownRun : List Action :=
  placementStart ++ [.thread 0 (.answer (.raised "timed out") none), .thread 0 (.finish .none .none)]

theorem unknown_placement_blocks : ∃ s, run step (initial .simulate) unknownRun = some s ∧
    ∀ acts s', Path step (fun s _ s' => ¬Resolves "operation-1" s s') s acts s' →
      s'.journal.markers = ["operation-1"] := by
  refine ⟨_, rfl, fun acts s' hpath => ?_⟩
  have hblocks := (@unresolved_blocks_dispatch .simulate _ (reachable_of_run unknownRun rfl)).2.2.2
  exact hblocks "operation-1" acts s' (.inl ⟨.unresolvedOutcome, by decide⟩) hpath

end MoomooMcp.System
