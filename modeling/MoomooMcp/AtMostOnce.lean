import MoomooMcp.Invariant

namespace MoomooMcp.System

open ExecutionStore Executor Machine

/-- A request on its way to admission. -/
def pendingRequest : Phase → Option Request
  | .validated c | .queued c | .admitting c => some c
  | _ => none

/-- A step that presents an operation, if at all, with an epoch other than the open one. -/
def Stale (op : OperationId) (s : Sys) (a : Action) (_ : Sys) : Prop :=
  ∀ p t c refusal, s.process = some p → a = .thread t (.present c refusal) → c.operationId = op →
    c.epoch ≠ p.store.epoch

/-- No request for the operation that still waits for admission carries the open epoch. -/
def Outdated (op : OperationId) (s : Sys) : Prop :=
  ∀ p t c, s.process = some p → pendingRequest (p.threads t) = some c → c.operationId = op →
    c.epoch ≠ p.store.epoch

variable {env : Environment} {s s' : Sys} {a : Action} {op : OperationId}

/-- The SDK writes started only grow, and only by an operation in dispatch. -/
theorem starts_step (hs : Inv s) (h : Transition s a s') : s'.starts = s.starts ∨
    ∃ op r, s'.starts = s.starts ++ [op] ∧ s.journal.row op = some r ∧ r.state = .dispatching ∧ r.marker = true := by
  cases h with
  | @thread p t i sh ph _ _ hp _ hmove =>
      rcases hmove.starts with hsame | ⟨c, row, q, hph, _, hnew⟩
      · exact .inl hsame
      · have hok := (hs.process p hp).threads t
        rw [hph] at hok
        obtain ⟨_, hflight, _⟩ := hok
        exact .inr ⟨_, _, hnew, hflight, rfl, rfl⟩
  | crash | unopened | unreviewed | reviewed | opened => exact .inl rfl

theorem pendingRequest_recovering {ph : Phase} (h : ph.recovering = true) : pendingRequest ph = none := by
  cases ph <;> simp_all [Phase.recovering, pendingRequest]

theorem pendingRequest_move {sh sh' : Shared} {i : Input} {ph ph' : Phase} {c : Request}
    (h : Move sh i ph sh' ph') (hc : pendingRequest ph' = some c) :
    pendingRequest ph = some c ∨ ∃ refusal, i = .present c refusal := by
  cases h with
  | quiet hquiet =>
      cases hquiet with
      | present => cases hc; exact .inr ⟨_, rfl⟩
      | queued => exact .inl hc
      | admitting => exact .inl hc
      | observed =>
          rw [pendingRequest_recovering (observe_recovering _ _ _ _)] at hc
          cases hc
      | blockFailed =>
          rw [pendingRequest_recovering (evidenceFailure_recovering _ _ _ _ _ _)] at hc
          cases hc
      | accounted =>
          rw [pendingRequest_recovering (account_recovering _ _ _ _ _)] at hc
          cases hc
      | _ => cases hc
  | admitted _ _ _ _ hph => rcases hph with ⟨rfl, _⟩ | ⟨⟨e, rfl⟩, _⟩ <;> cases hc
  | marked _ _ _ hph => rcases hph with ⟨rfl, _⟩ | ⟨⟨e, rfl⟩, _⟩ <;> cases hc
  | blocked _ _ hph =>
      rcases hph with rfl | ⟨e, rfl⟩
      · cases hc
      · rw [pendingRequest_recovering (evidenceFailure_recovering _ _ _ _ _ _)] at hc
        cases hc
  | started | finished | refused | recorded => cases hc

theorem fresh_of_map {j j' : Journal} {f : Row → Row} (hrows : ∀ k, j'.row k = (j.row k).map f)
    (h : j.row op = none) : j'.row op = none := by
  rw [hrows, h]
  rfl

/-- Only an admission creates a row, and it does so for the open epoch. -/
theorem fresh_move {sh sh' : Shared} {i : Input} {ph ph' : Phase} (h : Move sh i ph sh' ph')
    (hfresh : sh.journal.row op = none)
    (hstale : ∀ c, pendingRequest ph = some c → c.operationId = op → c.epoch ≠ sh.store.epoch) :
    sh'.journal.row op = none := by
  cases h with
  | quiet | started => exact hfresh
  | admitted hcommit =>
      refine (hcommit.rows op).trans ?_
      split
      · next hop => exact absurd hcommit.current (hstale _ rfl hop.symm)
      · exact hfresh
  | marked hcommit => exact fresh_of_map hcommit.rows hfresh
  | finished _ _ hstored =>
      rcases hstored with ⟨hc, _⟩ | ⟨rfl | hc, _⟩
      · exact fresh_of_map hc.rows hfresh
      · exact hfresh
      · exact fresh_of_map hc.rows hfresh
  | refused _ hstored =>
      rcases hstored with rfl | ⟨_, _, hc⟩
      · exact hfresh
      · exact fresh_of_map hc.rows hfresh
  | blocked hcommit => exact (hcommit.row op).trans hfresh
  | recorded hcommit =>
      cases hcommit with
      | check => exact fresh_of_map (row_recordCheck _) hfresh
      | resolved => exact fresh_of_map (row_resolve _ _ _ _) (fresh_of_map (row_recordCheck _) hfresh)

theorem stale_step (h : Transition s a s') (hok : Stale op s a s') (hfresh : s.journal.row op = none)
    (hout : Outdated op s) : s'.journal.row op = none ∧ Outdated op s' := by
  cases h with
  | @thread p t i sh ph _ _ hp _ hmove =>
      refine ⟨fresh_move hmove hfresh (fun c hc hop => hout p t c hp hc hop), ?_⟩
      rintro q u c hq hc hop
      cases hq
      dsimp only at hc ⊢
      rw [hmove.degrades.epoch]
      by_cases hut : u = t
      · subst u
        rw [Function.update_self] at hc
        rcases pendingRequest_move hmove hc with hold | ⟨refusal, rfl⟩
        · exact hout p t c hp hold hop
        · exact hok p t c refusal hp rfl hop
      · rw [Function.update_of_ne hut] at hc
        exact hout p u c hp hc hop
  | crash => exact ⟨hfresh, fun _ _ _ hq => by cases hq⟩
  | unopened => exact ⟨hfresh, hout⟩
  | unreviewed hp hstartup =>
      exact ⟨fresh_of_map hstartup.rows hfresh, fun _ _ _ hq => by rw [hp] at hq; cases hq⟩
  | reviewed hp hstartup hreview =>
      exact ⟨(hreview.row op).trans (fresh_of_map hstartup.rows hfresh),
        fun _ _ _ hq => by rw [hp] at hq; cases hq⟩
  | opened _ hstartup hreview =>
      refine ⟨(hreview.row op).trans (fresh_of_map hstartup.rows hfresh), ?_⟩
      rintro q u c hq hc _
      cases hq
      cases hc

theorem stale_never_admitted {acts : List Action} (h : Path step (Stale op) s acts s')
    (hfresh : s.journal.row op = none) (hout : Outdated op s) : s'.journal.row op = none := by
  have hinv : s'.journal.row op = none ∧ Outdated op s' :=
    h.invariant ⟨hfresh, hout⟩ (fun _ _ _ hs hstep hok => stale_step (step_transition hstep) hok hs.1 hs.2)
  exact hinv.1

theorem not_started_of_fresh (hs : Inv s) (hfresh : s.journal.row op = none) : op ∉ s.starts := by
  intro hop
  obtain ⟨r, hr, _⟩ := hs.durable.sent op hop
  rw [hfresh] at hr
  cases hr

/-- At most once dispatch, over every run of either environment with all its
crashes and restarts. No operation has its SDK write started twice; a write is
started only for a committed row in dispatch with its marker; and an operation
without a row that is presented with other epochs than the open one gets no row
and never reaches the SDK. -/
theorem dispatched_at_most_once {acts : List Action} (h : run step (initial env) acts = some s) :
    (∀ op, s.starts.count op ≤ 1) ∧
    (∀ a s', step s a = some s' → s'.starts = s.starts ∨
      ∃ op r, s'.starts = s.starts ++ [op] ∧ s.journal.row op = some r ∧ r.state = .dispatching ∧
        r.marker = true) ∧
    (∀ op later s', s.journal.row op = none → Outdated op s → Path step (Stale op) s later s' →
      s'.journal.row op = none ∧ op ∉ s'.starts) := by
  have hreach : Reachable env free s := reachable_of_run _ h
  have hs := reachable_inv hreach
  refine ⟨List.nodup_iff_count_le_one.mp hs.durable.once,
    fun a s' hstep => starts_step hs (step_transition hstep), ?_⟩
  intro op later s' hfresh hout hpath
  have hfresh' := stale_never_admitted hpath hfresh hout
  have hs' := reachable_inv (hreach.path (hpath.mono (fun _ _ _ _ _ => trivial)))
  exact ⟨hfresh', not_started_of_fresh hs' hfresh'⟩

def samplePlacement : Request where
  operationId := "operation-1"
  epoch := "epoch-1"
  kind := .place
  params := { code := some ⟨some "US", "AAPL"⟩, trdSide := some .buy, qty := some 10, price := some 100 }

/-- One placement from the first opening of the store up to its SDK write. -/
def placementStart : List Action :=
  [.reopen "epoch-1" .none .none,
    .thread 0 (.present samplePlacement none),
    .thread 0 (.lookup none .none),
    .thread 0 (.preflight none .none .none),
    .thread 0 (.admitOperation (.ok 7) "tag-1" none .none),
    .thread 0 (.enter .none),
    .thread 0 (.prepare (.ok []) .none {}),
    .thread 0 (.mark none .none none .none none),
    .thread 0 (.start none none)]

def placementRun : List Action :=
  placementStart ++
    [.thread 0 (.answer (.ok (some (.decimal [4, 2])) (.ok ⟨some (.decimal [4, 2]), none⟩) none) none),
      .thread 0 (.finish .none .none)]

theorem placement_dispatched_once : ∃ s, run step (initial .simulate) placementRun = some s ∧
    s.starts = ["operation-1"] ∧ ∀ op, s.starts.count op ≤ 1 :=
  ⟨_, rfl, rfl, (@dispatched_at_most_once .simulate _ placementRun rfl).1⟩

end MoomooMcp.System
