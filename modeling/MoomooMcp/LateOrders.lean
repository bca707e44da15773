import MoomooMcp.Blocking
import MoomooMcp.Schedule

namespace MoomooMcp.Executor

open ExecutionStore

/-- The recovery of an operation assumed absent resolves it, if at all, by its late order. -/
theorem late_resolution {n : Snapshot} {k : Conclusion} {resolution : Resolution} (h : Concludable .simulate n k)
    (hlate : n.late = true) (hk : k.resolution = some resolution) : resolution = .lateBrokerOrderFound := by
  cases h with
  | negative =>
      unfold negative paperNegative plainConclusion at hk
      dsimp only at hk
      rw [if_pos hlate] at hk
      split_ifs at hk
  | found =>
      have hk : (if Environment.simulate = .simulate ∧ n.late = true then Resolution.lateBrokerOrderFound else _) =
          resolution := Option.some.inj hk
      rw [if_pos ⟨rfl, hlate⟩] at hk
      exact hk.symm
  | error | targetPending => cases hk
  | notDispatched henv => cases henv

end MoomooMcp.Executor

namespace MoomooMcp.System

open ExecutionStore Executor Machine

/-- An operation assumed absent whose order turned up after all, and is not accounted for. -/
def LateBlocked (op : OperationId) (s : Sys) : Prop :=
  (op, Reason.lateOrderFound) ∈ s.journal.reviews ∧
    ∃ r, s.journal.row op = some r ∧ r.recoveryDisposition = some .assumedAbsent

/-- The steps that do not account for the late order of an operation. -/
def Unaccounted (op : OperationId) (s : Sys) (_ : Action) (s' : Sys) : Prop :=
  ¬∃ audit, s'.journal.audits = s.journal.audits ++ [audit] ∧ audit.operationId = op ∧
    audit.resolution = .lateBrokerOrderFound

/-- How often an operation was assumed absent. -/
def absences (j : Journal) (op : OperationId) : ℕ :=
  ((j.auditsOf op).filter (fun x => x.resolution = .assumedAbsent)).length

variable {env : Environment} {ok : Sys → Action → Sys → Prop} {s s' : Sys} {a : Action} {op : OperationId}

/-- While a review is outstanding nothing is admitted, marked or sent. -/
theorem blocked_step (hs : Inv s) (hstep : Transition s a s') (hblocked : s.journal.reviews ≠ ∅) :
    s'.journal.markers = s.journal.markers ∧ s'.starts = s.starts ∧
      ∀ k, s.journal.row k = none → s'.journal.row k = none := by
  refine ⟨?_, ?_, ?_⟩
  · by_contra hnew
    obtain ⟨_, _, hclear, _⟩ := marks_clear hs hstep hnew
    exact hblocked hclear
  · cases hstep with
    | @thread p t i sh ph _ _ hp _ hmove =>
        rcases hmove.starts with hsame | ⟨c, row, q, hph, _, _⟩
        · exact hsame
        · have hthread := (hs.process p hp).threads t
          rw [hph] at hthread
          obtain ⟨_, _, _, hclear, _⟩ := hthread
          exact absurd hclear hblocked
    | crash | unopened | unreviewed | reviewed | opened => rfl
  · intro k hnone
    cases hr' : s'.journal.row k with
    | none => rfl
    | some r' =>
        rcases row_step hs hstep hr' with ⟨r, hr, _⟩ | ⟨_, hclear, _⟩
        · rw [hnone] at hr
          cases hr
        · exact absurd hclear hblocked

theorem lateBlocked_step (h : Reachable .simulate ok s) (hlate : LateBlocked op s) (hstep : Transition s a s')
    (hok : Unaccounted op s a s') : LateBlocked op s' := by
  obtain ⟨hreview, r, hr, habsent⟩ := hlate
  obtain ⟨r', hr', _⟩ := extends_step hstep op r hr
  rcases settle_step (reachable_inv h) hstep op with hunsettling | ⟨p, n, rec, resolution, target, hsettling⟩
  · refine ⟨hunsettling.reviews _ hreview, r', hr', ?_⟩
    rcases hunsettling.row r' hr' with ⟨hnone, _⟩ | ⟨r₀, hr₀, hsame⟩
    · rw [hr] at hnone
      cases hnone
    · rw [hr] at hr₀
      cases hr₀
      rw [hsame, habsent]
  · exfalso
    apply hok
    have hstored := hsettling.current.stored
    rw [hsettling.key, hr] at hstored
    cases hstored
    obtain ⟨t, started, completed, c, fault, fault', _, _, hconcludable, hresolution, rfl⟩ := hsettling.conclusion
    rw [reachable_environment h] at hconcludable
    have hfound : resolution = .lateBrokerOrderFound :=
      late_resolution hconcludable (by simp [Snapshot.late, habsent]) hresolution
    refine ⟨_, by rw [hsettling.commit]; rfl, hsettling.key, hfound⟩

/-- An operation that was ever assumed absent stays settled, and is assumed absent once. -/
theorem absences_step (hs : Inv s) (hstep : Transition s a s')
    (h : absences s.journal op ≤ 1 ∧
      (absences s.journal op ≠ 0 → ∃ r, s.journal.row op = some r ∧ r.recoveryDisposition ≠ none)) :
    absences s'.journal op ≤ 1 ∧
      (absences s'.journal op ≠ 0 → ∃ r, s'.journal.row op = some r ∧ r.recoveryDisposition ≠ none) := by
  obtain ⟨honce, hsettled⟩ := h
  rcases settle_step hs hstep op with hunsettling | ⟨p, n, rec, resolution, target, hsettling⟩
  · have hsame : absences s'.journal op = absences s.journal op := by
      unfold absences
      rw [hunsettling.audits]
    rw [hsame]
    refine ⟨honce, fun hsome => ?_⟩
    obtain ⟨r, hr, hdisposition⟩ := hsettled hsome
    obtain ⟨r', hr', hd⟩ := extends_step hstep op r hr
    exact ⟨r', hr', hd.settled hdisposition⟩
  · refine ⟨?_, fun _ => ⟨_, hsettling.row, by simp [Row.resolve]⟩⟩
    have hstored := hsettling.current.stored
    rw [hsettling.key] at hstored
    unfold absences at honce hsettled ⊢
    rw [hsettling.commit, auditsOf_resolve hsettling.key, List.filter_append, List.length_append]
    by_cases habsent : resolution = .assumedAbsent
    · subst habsent
      obtain ⟨_, _, _, _, _, _, _, hnone⟩ := disposition_absent hsettling.disposition
      have hzero : ((s.journal.auditsOf op).filter (fun x => x.resolution = .assumedAbsent)).length = 0 := by
        by_contra hsome
        obtain ⟨r, hr, hdisposition⟩ := hsettled hsome
        rw [hstored] at hr
        cases hr
        exact hdisposition hnone
      simp only [hzero]
      simp [Recovery.audit]
    · simp [Recovery.audit, habsent]
      simpa using honce

theorem assumed_absent_once (h : Reachable env ok s) (op : OperationId) : absences s.journal op ≤ 1 := by
  have hall : absences s.journal op ≤ 1 ∧
      (absences s.journal op ≠ 0 → ∃ r, s.journal.row op = some r ∧ r.recoveryDisposition ≠ none) := by
    refine h.induction (P := fun s => absences s.journal op ≤ 1 ∧
      (absences s.journal op ≠ 0 → ∃ r, s.journal.row op = some r ∧ r.recoveryDisposition ≠ none)) ?_ ?_
    · rintro s rfl
      exact ⟨Nat.zero_le 1, fun hne => absurd rfl hne⟩
    · intro s a s' hreach hp hnext _
      exact absences_step (reachable_inv hreach) (step_transition hnext) hp
  exact hall.1

/-- A late order blocks the journal through every run that does not account for it. -/
theorem late_blocks (h : Reachable .simulate free s) (hlate : LateBlocked op s) {later : List Action}
    (hpath : Path step (Unaccounted op) s later s') :
    LateBlocked op s' ∧ s'.journal.markers = s.journal.markers ∧ s'.starts = s.starts ∧
      ∀ k, s.journal.row k = none → s'.journal.row k = none := by
  have hall : Reachable .simulate free s' ∧ LateBlocked op s' ∧ s'.journal.markers = s.journal.markers ∧
      s'.starts = s.starts ∧ ∀ k, s.journal.row k = none → s'.journal.row k = none := by
    refine hpath.invariant (P := fun u => Reachable .simulate free u ∧ LateBlocked op u ∧
      u.journal.markers = s.journal.markers ∧ u.starts = s.starts ∧
      ∀ k, s.journal.row k = none → u.journal.row k = none)
      ⟨h, hlate, rfl, rfl, fun _ hnone => hnone⟩ ?_
    rintro u a v ⟨hreach, hlate, hmarkers, hstarts, hrows⟩ hstep hok
    have htransition := step_transition hstep
    have hblocked : u.journal.reviews ≠ ∅ := by
      intro hclear
      have hreview := hlate.1
      rw [hclear] at hreview
      cases hreview
    obtain ⟨hmarkers', hstarts', hrows'⟩ := blocked_step (reachable_inv hreach) htransition hblocked
    exact ⟨hreach.step hstep trivial, lateBlocked_step hreach hlate htransition hok, hmarkers'.trans hmarkers,
      hstarts'.trans hstarts, fun k hnone => hrows' k (hrows k hnone)⟩
  exact hall.2

/-- A check that read a late order blocks the journal, if its block is committed at all. -/
theorem block_step (h : Reachable .simulate ok s) {p : Process} {t : Tid} {n : Snapshot} {started : ℚ}
    {found : List BrokerOrder} (hp : s.process = some p) (hph : p.threads t = .correlated n started found)
    {fault : Fault} (hstep : step s (.thread t (.block fault)) = some s')
    (hcommit : (n.row.operationId, Reason.lateOrderFound) ∈ s'.journal.reviews) :
    LateBlocked n.row.operationId s' := by
  have hs := reachable_inv h
  have hthread := (hs.process p hp).threads t
  rw [hph] at hthread
  obtain ⟨hcurrent, _, hlate, _⟩ := hthread
  have hstored : s.journal.row n.row.operationId = some n.row := hcurrent.stored
  have htransition := step_transition hstep
  obtain ⟨r', hr', _⟩ := extends_step htransition _ n.row hstored
  refine ⟨hcommit, r', hr', ?_⟩
  rcases settle_step hs htransition n.row.operationId with hunsettling | ⟨_, _, _, _, _, hsettling⟩
  · rcases hunsettling.row r' hr' with ⟨hnone, _⟩ | ⟨r, hr, hsame⟩
    · rw [hstored] at hnone
      cases hnone
    · rw [hstored] at hr
      cases hr
      rw [hsame]
      simpa [Snapshot.late] using hlate
  · obtain ⟨_, _, _, _, _, _, ha, _⟩ := hsettling.conclusion
    cases ha

/-- A late order blocks the journal again until it is accounted for. A check that read
orders of an operation assumed absent does no accounting before its block is
committed; from that commit on nothing is admitted, marked or sent, through every
check, failure, crash and restart, before a commit that accounts for the late order;
and no operation is ever assumed absent twice. -/
theorem late_order_blocks (h : Reachable .simulate free s) :
    (∀ p t n started found, s.process = some p → p.threads t = .correlated n started found →
      Sighted n.row found ∧ n.late = true ∧ ∀ fault s', step s (.thread t (.block fault)) = some s' →
        (n.row.operationId, Reason.lateOrderFound) ∈ s'.journal.reviews → LateBlocked n.row.operationId s') ∧
    (∀ p t n started found, s.process = some p → p.threads t = .accounting n started found → n.late = true →
      LateBlocked n.row.operationId s) ∧
    (∀ op later s', LateBlocked op s → Path step (Unaccounted op) s later s' →
      LateBlocked op s' ∧ s'.journal.markers = s.journal.markers ∧ s'.starts = s.starts ∧
        ∀ k, s.journal.row k = none → s'.journal.row k = none) ∧
    ∀ op, absences s.journal op ≤ 1 := by
  have hs := reachable_inv h
  refine ⟨?_, ?_, fun op later s' hlate hpath => late_blocks h hlate hpath, assumed_absent_once h⟩
  · intro p t n started found hp hph
    have hthread := (hs.process p hp).threads t
    rw [hph] at hthread
    obtain ⟨_, _, hlate, hsighted⟩ := hthread
    exact ⟨hsighted, hlate, fun fault s' hstep hcommit => block_step h hp hph hstep hcommit⟩
  · intro p t n started found hp hph hlate
    have hthread := (hs.process p hp).threads t
    rw [hph] at hthread
    obtain ⟨hcurrent, hblocked⟩ := hthread
    exact ⟨hblocked (reachable_environment h) hlate, n.row, hcurrent.stored, by simpa [Snapshot.late] using hlate⟩

theorem unaccounted_of_step (hstep : Transition s a s') (ha : a.records = false) : Unaccounted op s a s' := by
  rintro ⟨audit, haudits, _⟩
  rw [audits_kept hstep ha] at haudits
  simp at haudits

def lateOrder : BrokerOrder where
  orderId := some (.decimal [4, 2])
  orderStatus := some .submitted
  remark := some "tag-1"

/-- A late sighting of the absent placement, up to its block. -/
def lateRun : List Action :=
  absentRun ++ [recordAt 46, .thread 0 (.check "operation-1" .none .none 106 106), .thread 0 (.observe (.ok [lateOrder])),
    .thread 0 (.block .none)]

/-- A crash right after the block. -/
def lateCrash : List Action := [.crash, .reopen "epoch-3" .none .none]

theorem late_placement_blocks : ∃ s s', run step (initial .simulate) lateRun = some s ∧
    run step s lateCrash = some s' ∧ LateBlocked "operation-1" s' ∧ s'.starts = s.starts := by
  have hrun : ((run step (initial .simulate) lateRun).bind (fun s => (run step s lateCrash).bind (fun s' =>
      (s.journal.row "operation-1").map (fun r =>
        (decide (("operation-1", Reason.lateOrderFound) ∈ s.journal.reviews), r.recoveryDisposition))))) =
      some (true, some .assumedAbsent) := by
    decide +kernel
  simp only [Option.bind_eq_some_iff, Option.map_eq_some_iff, Prod.mk.injEq, decide_eq_true_eq] at hrun
  obtain ⟨s, hrun, s', hcrash, r, hr, hreview, habsent⟩ := hrun
  have hpath : Path step (Unaccounted "operation-1") s lateCrash s' := by
    refine path_of_run hcrash (fun a ha u v hstep => unaccounted_of_step (step_transition hstep) ?_)
    have hnone : lateCrash.all (fun a => !a.records) = true := rfl
    simpa using List.all_eq_true.mp hnone a ha
  have hlate : LateBlocked "operation-1" s := ⟨hreview, r, hr, habsent⟩
  obtain ⟨hlate', _, hstarts, _⟩ :=
    (late_order_blocks (reachable_of_run lateRun hrun)).2.2.1 "operation-1" lateCrash s' hlate hpath
  exact ⟨s, s', hrun, hcrash, hlate', hstarts⟩

end MoomooMcp.System
