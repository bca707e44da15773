import MoomooMcp.AtMostOnce
import MoomooMcp.Backoff
import MoomooMcp.Guards
import MoomooMcp.Rows

namespace MoomooMcp.ExecutionStore

def Check.span (c : Check) : Backoff.Span ℚ := (c.startedAt, c.completedAt)

/-- The recorded checks of an operation that found nothing, oldest first. -/
def Journal.misses (j : Journal) (op : OperationId) : List Check :=
  (j.recoveryChecks op).filter (fun c => c.outcome = .notFound)

variable {j j' : Journal} {epoch : Epoch} {op k : OperationId} {r : Recovery} {row : Row}

theorem misses_of_checks (h : j'.checks = j.checks) (op : OperationId) : j'.misses op = j.misses op := by
  unfold Journal.misses Journal.recoveryChecks
  rw [h]

theorem Records.checks (h : Records epoch op r j j') : j'.checks = j.checks ++ [r.check op] := by
  cases h <;> rfl

theorem recoveryChecks_recordCheck : (j.recordCheck op r).recoveryChecks op = j.recoveryChecks op ++ [r.check op] := by
  unfold Journal.recoveryChecks Journal.recordCheck
  rw [List.filter_append]
  simp [Recovery.check]

theorem Records.recoveryChecks (h : Records epoch op r j j') :
    j'.recoveryChecks op = j.recoveryChecks op ++ [r.check op] := by
  cases h <;> exact recoveryChecks_recordCheck

theorem Records.misses_other (h : Records epoch op r j j') (hk : k ≠ op) : j'.misses k = j.misses k := by
  unfold Journal.misses Journal.recoveryChecks
  rw [h.checks, List.filter_append]
  simp [Recovery.check, Ne.symm hk]

theorem Records.misses (h : Records epoch op r j j') :
    j'.misses op = if r.outcome = .notFound then j.misses op ++ [r.check op] else j.misses op := by
  unfold Journal.misses
  rw [h.recoveryChecks, List.filter_append]
  split_ifs with hr <;> simp [Recovery.check, hr]

/-- The audits of one operation, oldest first. -/
def Journal.auditsOf (j : Journal) (op : OperationId) : List Audit := j.audits.filter (fun x => x.operationId = op)

theorem auditsOf_resolve_other {resolution : Resolution} {target : State × Disposition} {audit : Audit}
    (h : audit.operationId ≠ k) :
    ((j.recordCheck op r).resolve op r resolution target audit).auditsOf k = j.auditsOf k := by
  unfold Journal.auditsOf Journal.resolve Journal.recordCheck
  rw [List.filter_append]
  simp [h]

theorem auditsOf_resolve {resolution : Resolution} {target : State × Disposition} {audit : Audit}
    (h : audit.operationId = k) :
    ((j.recordCheck op r).resolve op r resolution target audit).auditsOf k = j.auditsOf k ++ [audit] := by
  unfold Journal.auditsOf Journal.resolve Journal.recordCheck
  rw [List.filter_append]
  simp [h]

theorem Records.next (h : Records epoch op r j j') (hrow : j.row op = some row) {row' : Row}
    (hrow' : j'.row op = some row') : row'.nextRecoveryAt = r.nextCheckAt := by
  have hkey : row.operationId = op := row_key hrow
  cases h with
  | check =>
      rw [row_recordCheck, hrow, Option.map_some, Row.only_self hkey] at hrow'
      cases hrow'
      rfl
  | resolved =>
      rw [row_resolve, row_recordCheck, hrow, Option.map_some, Option.map_some, Row.only_self hkey,
        Row.only_self (by exact hkey)] at hrow'
      cases hrow'
      rfl

/-- What the journal asks of an absence. -/
theorem disposition_absent {count : ℕ} {target : State × Disposition}
    (h : j.disposition row count r .assumedAbsent = .ok target) : j.environment = .simulate ∧ row.kind = .place ∧
      (row.state = .admitted ∨ row.state = .unknownOutcome) ∧ row.orderTag ≠ none ∧ row.brokerOrderId = none ∧
      (∀ c ∈ j.recoveryChecks row.operationId, c.details.correlatedOrderSeen = false) ∧ 5 ≤ count ∧
      row.recoveryDisposition = none := by
  simp only [Journal.disposition] at h
  split_ifs at h with henv hrow
  simp only [not_or, not_not, not_exists, not_and, Bool.not_eq_true, Nat.not_lt] at henv hrow
  obtain ⟨hkind, hstate, htag, hid, hunseen, hcount, hnone⟩ := hrow
  exact ⟨henv, hkind, or_iff_not_imp_left.mpr hstate, htag, hid, hunseen, hcount, hnone⟩

end MoomooMcp.ExecutionStore

namespace MoomooMcp.Accounting

open Checks ExecutionStore Preparation

variable {env : Environment} {row : Row} {final : BrokerOrder} {orders : List BrokerOrder} {f : Fill}
  {query : PositionQuery} {r : Resolution} {a : Accounted}

theorem map_ok {α β : Type} {x : Except Exc α} {g : α → β} {b : β} (h : x.map g = .ok b) : ∃ a, x = .ok a ∧ g a = b := by
  cases x with
  | error e => cases h
  | ok a => exact ⟨a, rfl, Except.ok.inj h⟩

/-- Accounting establishes what became of an order, never its absence. -/
theorem paper_resolution (h : Paper.resolution row final f = .ok (some r)) : r ≠ .assumedAbsent := by
  unfold Paper.resolution at h
  split_ifs at h
  · obtain ⟨_, _, hr⟩ := map_ok h
    cases hr
    simp
  · cases h
    simp
  · obtain ⟨same, _, hr⟩ := map_ok h
    cases same <;> cases hr
    simp
  · cases h

theorem real_resolution (h : Real.resolution row final f orders = .ok (some r)) : r ≠ .assumedAbsent := by
  unfold Real.resolution at h
  split_ifs at h
  · obtain ⟨_, _, hr⟩ := map_ok h
    cases hr
    simp
  · cases h
    simp
  · simp at h
    simp [← h]
  · simp at h

theorem account_resolution (h : account env row orders query = .ok (some a)) : a.resolution ≠ .assumedAbsent := by
  cases env with
  | simulate =>
      obtain ⟨final, _, h⟩ := bind_ok.mp h
      obtain ⟨_, _, h⟩ := bind_ok.mp h
      obtain ⟨_, _, h⟩ := bind_ok.mp h
      obtain ⟨f, _, h⟩ := bind_ok.mp h
      obtain ⟨_, _, h⟩ := bind_ok.mp h
      obtain ⟨resolution, hresolution, h⟩ := bind_ok.mp h
      cases resolution with
      | none => cases h
      | some r =>
          obtain ⟨held, _, h⟩ := bind_ok.mp h
          cases h
          exact paper_resolution hresolution
  | real =>
      obtain ⟨final, _, h⟩ := bind_ok.mp h
      obtain ⟨_, _, h⟩ := bind_ok.mp h
      obtain ⟨_, _, h⟩ := bind_ok.mp h
      obtain ⟨f, _, h⟩ := bind_ok.mp h
      obtain ⟨_, _, h⟩ := bind_ok.mp h
      obtain ⟨resolution, hresolution, h⟩ := bind_ok.mp h
      cases resolution with
      | none => cases h
      | some r =>
          obtain ⟨codes, _, h⟩ := bind_ok.mp h
          obtain ⟨held, _, h⟩ := bind_ok.mp h
          cases h
          exact real_resolution hresolution

end MoomooMcp.Accounting

namespace MoomooMcp.Executor

open ExecutionStore

/-- The gap after each check that found nothing. -/
def gap (i : ℕ) : ℚ := negativeGaps.getD i 0

variable {env : Environment} {n : Snapshot} {k : Conclusion}

theorem gap_late {i : ℕ} (h : 4 ≤ i) : gap i = 0 := by
  unfold gap negativeGaps
  rw [List.getD_eq_getElem?_getD, List.getElem?_eq_none (by simpa using h), Option.getD_none]

theorem gap_nonneg (i : ℕ) : 0 ≤ gap i := by
  by_cases h : 4 ≤ i
  · rw [gap_late h]
  · have hi : i = 0 ∨ i = 1 ∨ i = 2 ∨ i = 3 := by omega
    rcases hi with rfl | rfl | rfl | rfl <;> decide

theorem monitorInterval_nonneg : 0 ≤ monitorInterval := by decide

theorem defaultDelay_nonneg : 0 ≤ defaultDelay env := by cases env <;> decide

theorem foundDelay_nonneg : 0 ≤ foundDelay env := by cases env <;> decide

/-- A paper check that found nothing is not counted, is the one that concludes absence, or is counted only. -/
theorem paperNegative_cases (n : Snapshot) :
    (∃ outcome delay, outcome ≠ .notFound ∧ 0 ≤ delay ∧ paperNegative n = plainConclusion outcome delay [] none) ∨
    (4 ≤ n.negatives ∧ paperNegative n = plainConclusion .notFound monitorInterval [] (some .assumedAbsent)) ∨
    paperNegative n = plainConclusion .notFound (gap n.negatives) [] none := by
  unfold paperNegative
  split_ifs with _ _ hfive
  · exact .inl ⟨.monitorNotFound, monitorInterval, by simp, monitorInterval_nonneg, rfl⟩
  · exact .inr (.inl ⟨by omega, rfl⟩)
  · exact .inr (.inr rfl)
  · exact .inl ⟨.identityNotFound, defaultDelay .simulate, by simp, defaultDelay_nonneg, rfl⟩

theorem delay_nonneg (h : Concludable env n k) : 0 ≤ k.delay := by
  cases h with
  | error | targetPending => exact defaultDelay_nonneg
  | negative =>
      cases env with
      | simulate =>
          have hcases := paperNegative_cases n
          have hk : negative .simulate n = paperNegative n := rfl
          rw [hk]
          rcases hcases with ⟨_, _, _, hdelay, he⟩ | ⟨_, he⟩ | he <;> rw [he]
          · exact hdelay
          · exact monitorInterval_nonneg
          · exact gap_nonneg _
      | real =>
          have hdelay : 0 ≤ defaultDelay .real := defaultDelay_nonneg
          exact hdelay
  | found => exact foundDelay_nonneg
  | notDispatched =>
      have hdelay : 0 ≤ defaultDelay .real := defaultDelay_nonneg
      exact hdelay

/-- A paper check that found nothing puts the next one off by the gap that is its turn. -/
theorem miss_delay (h : Concludable .simulate n k) (hk : k.outcome = .notFound) : gap n.negatives ≤ k.delay := by
  cases h with
  | negative =>
      have hsame : negative .simulate n = paperNegative n := rfl
      rw [hsame] at hk ⊢
      rcases paperNegative_cases n with ⟨_, _, hnot, _, he⟩ | ⟨hfour, he⟩ | he <;> rw [he] at hk ⊢
      · exact absurd hk hnot
      · rw [gap_late hfour]
        exact monitorInterval_nonneg
      · exact le_refl _
  | error | targetPending | found => cases hk
  | notDispatched henv => cases henv

/-- Absence is concluded from a check that found nothing, and saw nothing. -/
theorem absent_conclusion (h : Concludable env n k) (hk : k.resolution = some .assumedAbsent) :
    k.outcome = .notFound ∧ k.details.correlatedOrderSeen = false := by
  cases h with
  | negative =>
      cases env with
      | simulate =>
          have hsame : negative .simulate n = paperNegative n := rfl
          rw [hsame] at hk ⊢
          rcases paperNegative_cases n with ⟨_, _, _, _, he⟩ | ⟨_, he⟩ | he <;> rw [he] at hk ⊢
          · cases hk
          · exact ⟨rfl, rfl⟩
          · cases hk
      | real => cases hk
  | @found found positions a haccount =>
      have hnot := Accounting.account_resolution haccount
      have hk : (if env = .simulate ∧ n.late = true then Resolution.lateBrokerOrderFound else a.resolution) = .assumedAbsent :=
        Option.some.inj hk
      split_ifs at hk
      exact absurd hk hnot
  | error | targetPending | notDispatched => cases hk

/-- The check a thread is in the middle of, and when that started. -/
def Phase.clocked : Phase → Option (Snapshot × ℚ)
  | .checking n started | .correlated n started _ | .accounting n started _ | .concluding n started _ =>
      some (n, started)
  | _ => none

theorem inLock_of_clocked {ph : Phase} {x : Snapshot × ℚ} (h : ph.clocked = some x) : ph.inLock = true := by
  cases ph <;> simp_all [Phase.clocked, Phase.inLock]

theorem evidenceFailure_clocked (env : Environment) (n : Snapshot) (started : ℚ) (orders : List BrokerOrder)
    (seen : Bool) (e : Exc) {x : Snapshot × ℚ} (h : (evidenceFailure env n started orders seen e).clocked = some x) :
    x = (n, started) := by
  unfold evidenceFailure at h
  split at h <;> cases h
  rfl

theorem observe_clocked (env : Environment) (n : Snapshot) (started : ℚ) (orders : Except Exc (List BrokerOrder))
    {x : Snapshot × ℚ} (h : (observe env n started orders).clocked = some x) : x = (n, started) := by
  unfold observe at h
  split at h
  · exact evidenceFailure_clocked _ _ _ _ _ _ h
  · split at h
    · cases h
      rfl
    · split at h <;> cases h <;> rfl

theorem account_clocked (env : Environment) (n : Snapshot) (started : ℚ) (found : List BrokerOrder)
    (positions : Accounting.PositionQuery) {x : Snapshot × ℚ}
    (h : (account env n started found positions).clocked = some x) : x = (n, started) := by
  unfold account at h
  split at h
  · exact evidenceFailure_clocked _ _ _ _ _ _ h
  · split at h
    · exact evidenceFailure_clocked _ _ _ _ _ _ h
    · cases h
      rfl
    · cases h
      rfl

variable {sh sh' : Shared} {ph ph' : Phase} {i : Input}

/-- A check goes on with the row and the start it began with. -/
theorem Move.clocked (h : Move sh i ph sh' ph') {n : Snapshot} {started : ℚ} (hph : ph'.clocked = some (n, started)) :
    ph.clocked = some (n, started) ∨
      ∃ op fault fault' due, i = .check op fault fault' due started ∧ Due sh op due n := by
  cases h with
  | quiet hquiet =>
      cases hquiet with
      | observed => left; rw [observe_clocked _ _ _ _ hph]; rfl
      | blockFailed => left; rw [evidenceFailure_clocked _ _ _ _ _ _ hph]; rfl
      | accounted => left; rw [account_clocked _ _ _ _ _ hph]; rfl
      | checking _ hdue | notDispatched _ hdue =>
          cases hph
          exact .inr ⟨_, _, _, _, rfl, hdue⟩
      | _ => cases hph
  | admitted _ _ _ _ hph' => rcases hph' with ⟨rfl, _⟩ | ⟨⟨e, rfl⟩, _⟩ <;> cases hph
  | marked _ _ _ hph' => rcases hph' with ⟨rfl, _⟩ | ⟨⟨e, rfl⟩, _⟩ <;> cases hph
  | blocked _ _ hph' =>
      left
      rcases hph' with rfl | ⟨e, rfl⟩
      · exact hph
      · rw [evidenceFailure_clocked _ _ _ _ _ _ hph]
        rfl
  | started | finished | refused | recorded => cases hph

end MoomooMcp.Executor

namespace MoomooMcp.System

open ExecutionStore Executor Backoff Machine

/-- The clock never goes back. -/
def NonDecreasing (s : Sys) (a : Action) (_ : Sys) : Prop := (s.now :: readings a).Pairwise (· ≤ ·)

instance (s : Sys) (a : Action) (s' : Sys) : Decidable (NonDecreasing s a s') := by
  unfold NonDecreasing
  infer_instance

variable {env : Environment} {s s' : Sys} {a : Action} {p : Process} {t : Tid} {i : Input}

theorem now_moved {p' : Process} (h : Moved s p t i s' p') (hok : NonDecreasing s (.thread t i) s') :
    s.now ≤ s'.now ∧ ∀ x ∈ readings (.thread t i), s.now ≤ x ∧ x ≤ s'.now := by
  have hnow := h.now
  unfold NonDecreasing at hok
  cases i with
  | check op fault fault' due started =>
      simp only [readings, List.pairwise_cons, List.mem_cons, List.not_mem_nil, or_false, forall_eq_or_imp,
        forall_eq] at hok
      obtain ⟨⟨hdue, hstarted⟩, hle, _⟩ := hok
      have hnow : s'.now = started := hnow
      rw [hnow]
      refine ⟨hstarted, ?_⟩
      simp only [readings, List.mem_cons, List.not_mem_nil, or_false, forall_eq_or_imp, forall_eq]
      exact ⟨⟨hdue, hle⟩, hstarted, le_refl _⟩
  | record completed stopped fault fault' =>
      simp only [readings, List.pairwise_cons, List.mem_cons, List.not_mem_nil, or_false, forall_eq] at hok
      have hnow : s'.now = completed := hnow
      rw [hnow]
      refine ⟨hok.1, ?_⟩
      simp only [readings, List.mem_cons, List.not_mem_nil, or_false, forall_eq]
      exact ⟨hok.1, le_refl _⟩
  | _ => exact ⟨le_of_eq hnow.symm, fun x hx => by cases hx⟩

/-- A check starts once its row is due. -/
theorem started_due (h : Reachable env NonDecreasing s) (hp : s.process = some p) {n : Snapshot} {started : ℚ}
    (hph : (p.threads t).clocked = some (n, started)) : n.row.nextRecoveryAt ≤ started ∧ started ≤ s.now := by
  have hall : ∀ n started, (p.threads t).clocked = some (n, started) →
      n.row.nextRecoveryAt ≤ started ∧ started ≤ s.now := by
    refine lock_rule (Q := fun s _ ph => ∀ n started, ph.clocked = some (n, started) →
      n.row.nextRecoveryAt ≤ started ∧ started ≤ s.now) ?_ ?_ ?_ h hp t
    · intro s p ph hout n started hclocked
      rw [inLock_of_clocked hclocked] at hout
      cases hout
    · intro s p s' p' t i ph hmoved hok _ hq n started hclocked
      obtain ⟨hdue, hnow⟩ := hq n started hclocked
      exact ⟨hdue, hnow.trans (now_moved hmoved hok).1⟩
    · intro s p s' p' t i _ hmoved hok hq n started hclocked
      obtain ⟨hnow, hreadings⟩ := now_moved hmoved hok
      rcases hmoved.move.clocked hclocked with hold | ⟨op, fault, fault', due, rfl, hdue⟩
      · obtain ⟨hdue, hstarted⟩ := hq n started hold
        exact ⟨hdue, hstarted.trans hnow⟩
      · unfold NonDecreasing at hok
        simp only [readings, List.pairwise_cons, List.mem_cons, List.not_mem_nil, or_false, forall_eq_or_imp,
          forall_eq] at hok
        refine ⟨hdue.due.trans hok.2.1, (hreadings started ?_).2⟩
        simp [readings]
  exact hall n started hph

theorem RowStep.next {r r' : Row} (h : RowStep s s' a r r') (hsame : s'.journal.checks = s.journal.checks) :
    r'.nextRecoveryAt = r.nextRecoveryAt := by
  cases h with
  | kept | marked | observed | refused => rfl
  | @concluded p t c row q sdk o =>
      unfold Row.concluded Row.only Row.observe
      split_ifs <;> rfl
  | checked _ _ hchecks | resolved _ _ _ _ hchecks =>
      rw [hsame] at hchecks
      simp at hchecks
  | recovered =>
      unfold Row.recoverDispatch
      split <;> rfl

/-- The checks of an operation that found nothing keep to the schedule. -/
structure Scheduled (j : Journal) (op : OperationId) : Prop where
  owned : j.row op = none → j.misses op = []
  spaced : Spaced gap ((j.misses op).map Check.span)
  putOff : ∀ r, j.row op = some r → PutOff gap ((j.misses op).map Check.span) r.nextRecoveryAt

/-- The step lemma for a recorded check: it started when it was due, and it puts the next one off. -/
theorem scheduled_record {n : Snapshot} {started completed : ℚ} {c : Conclusion} {epoch : Epoch} {j j' : Journal}
    (h : Scheduled j n.row.operationId) (hcurrent : Current j n) (hc : Concludable .simulate n c)
    (hdue : n.row.nextRecoveryAt ≤ started) (hcompleted : started ≤ completed)
    (hrecords : Records epoch n.row.operationId (recovery n started completed c) j j') :
    Scheduled j' n.row.operationId := by
  have hstored : j.row n.row.operationId = some n.row := hcurrent.stored
  have hdelay := delay_nonneg hc
  have hput := h.putOff n.row hstored
  have hrow : ∀ r, j'.row n.row.operationId = some r → r.nextRecoveryAt = completed + c.delay :=
    fun r hr => hrecords.next hstored hr
  have howned : j'.row n.row.operationId ≠ none := by
    obtain ⟨r', hr', _⟩ := hrecords.extends _ _ hstored
    rw [hr']
    exact Option.some_ne_none r'
  have hnegatives : n.negatives = (j.misses n.row.operationId).length := by
    unfold Snapshot.negatives Journal.misses
    rw [hcurrent.checks]
  have hmisses := hrecords.misses
  have houtcome : (recovery n started completed c).outcome = c.outcome := rfl
  rw [houtcome] at hmisses
  split_ifs at hmisses with hmiss
  · have hspan : ((recovery n started completed c).check n.row.operationId).span = (started, completed) := rfl
    refine ⟨fun hnone => absurd hnone howned, ?_, ?_⟩
    · rw [hmisses, List.map_append, List.map_singleton, hspan]
      exact h.spaced.snoc hput hdue
    · intro r hr
      rw [hmisses, List.map_append, List.map_singleton, hspan, hrow r hr]
      apply putOff_snoc
      rw [List.length_map, ← hnegatives]
      exact add_le_add_right (miss_delay hc hmiss) completed
  · refine ⟨fun hnone => absurd hnone howned, ?_, ?_⟩
    · rw [hmisses]
      exact h.spaced
    · intro r hr
      rw [hmisses, hrow r hr]
      apply hput.later
      calc n.row.nextRecoveryAt ≤ started := hdue
        _ ≤ completed := hcompleted
        _ ≤ completed + c.delay := le_add_of_nonneg_right hdelay

theorem scheduled_step (h : Reachable .simulate NonDecreasing s) (hsched : ∀ op, Scheduled s.journal op)
    (hstep : Transition s a s') (hok : NonDecreasing s a s') (op : OperationId) : Scheduled s'.journal op := by
  have hs := reachable_inv h
  rcases record_step hstep with ⟨hchecks, _, _⟩ |
    ⟨p, t, n, started, c, completed, fault, fault', hp, rfl, hph, hc⟩
  · have hmisses := misses_of_checks hchecks op
    refine ⟨?_, by rw [hmisses]; exact (hsched op).spaced, ?_⟩
    · intro hnone
      rw [hmisses]
      apply (hsched op).owned
      cases hr : s.journal.row op with
      | none => rfl
      | some r =>
          obtain ⟨r', hr', _⟩ := extends_step hstep op r hr
          rw [hnone] at hr'
          cases hr'
    · intro r' hr'
      rw [hmisses]
      rcases row_step hs hstep hr' with ⟨r, hr, hrow⟩ | ⟨hnone, _⟩
      · rw [hrow.next hchecks]
        exact (hsched op).putOff r hr
      · rw [(hsched op).owned hnone]
        exact putOff_nil
  · have hthread := (hs.process p hp).threads t
    rw [hph] at hthread
    obtain ⟨hcurrent, hconcludable⟩ := hthread
    by_cases hk : op = n.row.operationId
    · subst hk
      have henv : (shared s p).environment = .simulate := reachable_environment h
      rw [henv] at hconcludable
      obtain ⟨hdue, hstarted⟩ := started_due h hp (show (p.threads t).clocked = some (n, started) by rw [hph]; rfl)
      unfold NonDecreasing at hok
      simp only [readings, List.pairwise_cons, List.mem_cons, List.not_mem_nil, or_false, forall_eq] at hok
      exact scheduled_record (hsched _) hcurrent hconcludable hdue (hstarted.trans hok.1) hc
    · obtain ⟨hrow, _⟩ := hc.other hk
      refine ⟨?_, ?_, ?_⟩
      · rw [hrow, hc.misses_other hk]
        exact (hsched op).owned
      · rw [hc.misses_other hk]
        exact (hsched op).spaced
      · rw [hrow, hc.misses_other hk]
        exact (hsched op).putOff

theorem reachable_scheduled (h : Reachable .simulate NonDecreasing s) (op : OperationId) : Scheduled s.journal op := by
  have hall : ∀ op, Scheduled s.journal op := by
    refine h.induction (P := fun s => ∀ op, Scheduled s.journal op) ?_ ?_
    · rintro s rfl op
      exact ⟨fun _ => rfl, spaced_nil, fun r hr => by cases hr⟩
    · intro s a s' hreach hsched hnext hok
      exact scheduled_step hreach hsched (step_transition hnext) hok
  exact hall op

/-- What has to hold of a row that is assumed absent, with the checks it is assumed absent by. -/
structure Absent (j : Journal) (r : Row) : Prop where
  environment : j.environment = .simulate
  kind : r.kind = .place
  tagged : r.orderTag ≠ none
  state : r.state = .admitted ∨ r.state = .unknownOutcome
  unidentified : r.brokerOrderId = none
  unseen : ∀ c ∈ j.recoveryChecks r.operationId, c.details.correlatedOrderSeen = false
  five : 5 ≤ (j.misses r.operationId).length
  schedule : ∀ i d, ([5, 5, 10, 20] : List ℚ)[i]? = some d → ∃ a b, (j.misses r.operationId)[i]? = some a ∧
    (j.misses r.operationId)[i + 1]? = some b ∧ a.completedAt + d ≤ b.startedAt

theorem RowStep.disposition {r r' : Row} (h : RowStep s s' a r r') (hsame : s'.journal.audits = s.journal.audits) :
    r'.recoveryDisposition = r.recoveryDisposition := by
  cases h with
  | kept | marked | observed | refused | checked => rfl
  | @concluded p t c row q sdk o =>
      unfold Row.concluded Row.only Row.observe
      split_ifs <;> rfl
  | recovered =>
      unfold Row.recoverDispatch
      split <;> rfl
  | resolved _ _ _ _ _ haudits =>
      rw [hsame] at haudits
      simp at haudits

/-- The commits that settle nothing about an operation. -/
structure Unsettling (op : OperationId) (j j' : Journal) : Prop where
  row : ∀ r', j'.row op = some r' → j.row op = none ∧ r'.recoveryDisposition = none ∨
    ∃ r, j.row op = some r ∧ r'.recoveryDisposition = r.recoveryDisposition
  audits : j'.auditsOf op = j.auditsOf op
  reviews : ∀ reason, (op, reason) ∈ j.reviews → (op, reason) ∈ j'.reviews

/-- The commit that settles an operation. -/
structure Settling (op : OperationId) (s : Sys) (a : Action) (j' : Journal) (p : Process) (n : Snapshot)
    (r : Recovery) (resolution : Resolution) (target : State × Disposition) : Prop where
  process : s.process = some p
  key : n.row.operationId = op
  current : Current s.journal n
  conclusion : ∃ t started completed c fault fault', a = .thread t (.record completed false fault fault') ∧
    p.threads t = .concluding n started c ∧ Concludable s.journal.environment n c ∧ c.resolution = some resolution ∧
    r = recovery n started completed c
  disposition : s.journal.disposition n.row ((s.journal.recordCheck op r).negatives op) r resolution = .ok target
  commit : j' = (s.journal.recordCheck op r).resolve op r resolution target (r.audit n.row resolution p.store.epoch)

/-- A step settles nothing about an operation, or it is the commit that does. -/
theorem settle_step (hs : Inv s) (hstep : Transition s a s') (op : OperationId) :
    Unsettling op s.journal s'.journal ∨
      ∃ p n r resolution target, Settling op s a s'.journal p n r resolution target := by
  rcases record_step hstep with ⟨_, haudits, hreviews⟩ |
    ⟨p, t, n, started, c, completed, fault, fault', hp, rfl, hph, hc⟩
  · refine .inl ⟨?_, by unfold Journal.auditsOf; rw [haudits], fun _ hr => hreviews hr⟩
    intro r' hr'
    rcases row_step hs hstep hr' with ⟨r, hr, hrow⟩ | ⟨hnone, _, _, _, _, rfl⟩
    · exact .inr ⟨r, hr, hrow.disposition haudits⟩
    · exact .inl ⟨hnone, rfl⟩
  · have hthread := (hs.process p hp).threads t
    rw [hph] at hthread
    obtain ⟨hcurrent, hconcludable⟩ := hthread
    have hstored : s.journal.row n.row.operationId = some n.row := hcurrent.stored
    by_cases hk : op = n.row.operationId
    · subst hk
      generalize hj : s'.journal = j at hc
      cases hc with
      | check =>
          refine .inl ⟨?_, rfl, fun _ hr => hr⟩
          intro r' hr'
          rw [row_recordCheck, hstored, Option.map_some, Row.only_self rfl] at hr'
          cases hr'
          exact .inr ⟨n.row, hstored, rfl⟩
      | resolved row resolution target hrow _ hsome htarget =>
          rw [hstored] at hrow
          cases hrow
          exact .inr ⟨p, n, _, resolution, target, hp, rfl, hcurrent,
            ⟨t, started, completed, c, fault, fault', rfl, hph, hconcludable, hsome, rfl⟩, htarget, rfl⟩
    · obtain ⟨hrow, _⟩ := hc.other hk
      have hne : ∀ r : Recovery, ∀ resolution, ∀ epoch : Epoch, (r.audit n.row resolution epoch).operationId ≠ op :=
        fun _ _ _ he => hk he.symm
      refine .inl ⟨fun r' hr' => .inr ⟨r', by rw [← hrow]; exact hr', rfl⟩, ?_, ?_⟩
      · generalize s'.journal = j at hc
        cases hc with
        | check => rfl
        | resolved row resolution target hrow' =>
            rw [hstored] at hrow'
            cases hrow'
            exact auditsOf_resolve_other (hne _ _ _)
      · intro reason hr
        generalize s'.journal = j at hc
        cases hc with
        | check => exact hr
        | resolved => exact Finset.mem_filter.mpr ⟨hr, hk⟩

/-- What a commit does about the recovery of an operation: it settles nothing, or it
writes the check, the disposition and its audit, and releases the review, at once. -/
inductive Settles (op : OperationId) (j j' : Journal) : Prop
  | nothing (h : Unsettling op j j')
  | together (check : Check) (audit : Audit) (r' : Row) (hcheck : check.operationId = op)
      (hchecks : j'.checks = j.checks ++ [check]) (haudit : audit.operationId = op)
      (haudits : j'.audits = j.audits ++ [audit]) (hrow : j'.row op = some r')
      (hdisposition : r'.recoveryDisposition = some audit.resolution) (hreleased : ¬j'.pending op)

variable {op : OperationId} {j' : Journal} {n : Snapshot} {r : Recovery} {resolution : Resolution}
  {target : State × Disposition}

theorem Settling.row (h : Settling op s a j' p n r resolution target) :
    j'.row op = some ((n.row.recordCheck r).resolve r resolution target) := by
  have hstored : s.journal.row op = some n.row := by
    rw [← h.key]
    exact h.current.stored
  rw [h.commit, row_resolve, row_recordCheck, hstored, Option.map_some, Option.map_some, Row.only_self h.key,
    Row.only_self (by exact h.key)]

theorem Settling.settles (h : Settling op s a j' p n r resolution target) : Settles op s.journal j' := by
  refine .together (r.check op) (r.audit n.row resolution p.store.epoch)
    ((n.row.recordCheck r).resolve r resolution target) rfl ?_ h.key ?_ h.row rfl ?_
  · rw [h.commit]
    rfl
  · rw [h.commit]
    rfl
  · rintro ⟨reason, hr⟩
    rw [h.commit] at hr
    exact (Finset.mem_filter.mp hr).2 rfl

/-- A row becomes assumed absent only as the schedule asks for it. -/
theorem Settling.absent (h : Settling op s a j' p n r .assumedAbsent target) (hs : Scheduled j' op) :
    Absent j' n.row := by
  obtain ⟨t, started, completed, c, fault, fault', _, _, hconcludable, hresolution, rfl⟩ := h.conclusion
  obtain ⟨hmiss, hsaw⟩ := absent_conclusion hconcludable hresolution
  obtain ⟨henv, hkind, hstate, htag, hid, hunseen, hcount, _⟩ := disposition_absent h.disposition
  have hkey := h.key
  subst hkey
  have hchecks : j'.recoveryChecks n.row.operationId =
      (s.journal.recordCheck n.row.operationId (recovery n started completed c)).recoveryChecks n.row.operationId := by
    rw [h.commit]
    rfl
  have hfive : 5 ≤ (j'.misses n.row.operationId).length := by
    unfold Journal.misses
    rw [hchecks]
    exact hcount
  refine ⟨by rw [h.commit]; exact henv, hkind, htag, hstate, hid, ?_, hfive, ?_⟩
  · intro check hcheck
    have hsplit : j'.recoveryChecks n.row.operationId = s.journal.recoveryChecks n.row.operationId ++
        [(recovery n started completed c).check n.row.operationId] := by
      rw [hchecks]
      exact recoveryChecks_recordCheck
    rw [hsplit, List.mem_append, List.mem_singleton] at hcheck
    rcases hcheck with hold | rfl
    · exact hunseen check hold
    · exact hsaw
  · intro i d hd
    have hi : i < 4 := by
      have hlength := (List.getElem?_eq_some_iff.mp hd).1
      simpa using hlength
    have hgap : gap i = d := by
      unfold gap negativeGaps
      rw [List.getD_eq_getElem?_getD, hd, Option.getD_some]
    have hfirst : i < (j'.misses n.row.operationId).length := by omega
    have hsecond : i + 1 < (j'.misses n.row.operationId).length := by omega
    refine ⟨_, _, List.getElem?_eq_getElem hfirst, List.getElem?_eq_getElem hsecond, ?_⟩
    rw [← hgap]
    have hspan : ∀ i, (hi : i < (j'.misses n.row.operationId).length) →
        ((j'.misses n.row.operationId).map Check.span)[i]? = some (j'.misses n.row.operationId)[i].span := by
      intro i hi
      rw [List.getElem?_map, List.getElem?_eq_getElem hi, Option.map_some]
    have hgapped := hs.spaced i _ _ (hspan i hfirst) (hspan (i + 1) hsecond)
    exact hgapped

/-- A REAL row is never assumed absent. -/
theorem real_never_absent {ok : Sys → Action → Sys → Prop} (h : Reachable .real ok s) {k : OperationId} {r : Row}
    (hr : s.journal.row k = some r) : r.recoveryDisposition ≠ some .assumedAbsent := by
  have hall : ∀ k r, s.journal.row k = some r → r.recoveryDisposition ≠ some .assumedAbsent := by
    refine h.induction (P := fun s => ∀ k r, s.journal.row k = some r → r.recoveryDisposition ≠ some .assumedAbsent) ?_ ?_
    · rintro s rfl k r hr
      cases hr
    · intro s a s' hreach hnone hnext _ k r' hr'
      rcases settle_step (reachable_inv hreach) (step_transition hnext) k with
        hunsettling | ⟨p, n, r, resolution, target, hsettling⟩
      · rcases hunsettling.row r' hr' with ⟨_, hnew⟩ | ⟨r, hr, hsame⟩
        · rw [hnew]
          simp
        · rw [hsame]
          exact hnone k r hr
      · rw [hsettling.row] at hr'
        cases hr'
        intro habsent
        cases habsent
        obtain ⟨henv, _⟩ := disposition_absent hsettling.disposition
        rw [reachable_environment hreach] at henv
        cases henv
  exact hall k r hr

/-- Assumed absence is never premature. -/
theorem assumed_absence_never_premature (h : Reachable env NonDecreasing s) :
    (env = .real → ∀ k r, s.journal.row k = some r → r.recoveryDisposition ≠ some .assumedAbsent) ∧
    (∀ a s' k r', step s a = some s' → NonDecreasing s a s' → s'.journal.row k = some r' →
      r'.recoveryDisposition = some .assumedAbsent → ∃ r, s.journal.row k = some r ∧
        (r.recoveryDisposition = some .assumedAbsent ∨ Absent s'.journal r)) ∧
    ∀ a s' k, step s a = some s' → Settles k s.journal s'.journal := by
  refine ⟨?_, ?_, ?_⟩
  · rintro rfl k r hr
    exact real_never_absent h hr
  · intro a s' k r' hstep hok hr' habsent
    have htransition := step_transition hstep
    rcases settle_step (reachable_inv h) htransition k with hunsettling | ⟨p, n, r, resolution, target, hsettling⟩
    · rcases hunsettling.row r' hr' with ⟨_, hnew⟩ | ⟨r, hr, hsame⟩
      · rw [hnew] at habsent
        cases habsent
      · exact ⟨r, hr, .inl (by rw [← hsame]; exact habsent)⟩
    · rw [hsettling.row] at hr'
      cases hr'
      cases habsent
      have hkey := hsettling.key
      subst hkey
      refine ⟨n.row, hsettling.current.stored, .inr ?_⟩
      obtain ⟨henv, _⟩ := disposition_absent hsettling.disposition
      have hsimulate : env = .simulate := (reachable_environment h).symm.trans henv
      subst hsimulate
      exact hsettling.absent (reachable_scheduled (h.step hstep hok) n.row.operationId)
  · intro a s' k hstep
    rcases settle_step (reachable_inv h) (step_transition hstep) k with hunsettling | ⟨p, n, r, resolution, target, hsettling⟩
    · exact .nothing hunsettling
    · exact hsettling.settles

/-- A check by thread 0 that reads no orders, up to its record. -/
def emptyCheck (started : ℚ) : List Action :=
  [.thread 0 (.check "operation-1" .none .none started started), .thread 0 (.observe (.ok []))]

def recordAt (completed : ℚ) : Action := .thread 0 (.record completed false .none .none)

/-- A placement that was admitted before a crash, and the checks after the restart up to the fifth record. -/
def absentRun : List Action :=
  placementStart.take 5 ++ [.crash, .reopen "epoch-2" .none .none] ++ emptyCheck 1 ++ [recordAt 2] ++
    emptyCheck 7 ++ [recordAt 8] ++ emptyCheck 13 ++ [recordAt 14] ++ emptyCheck 24 ++ [recordAt 25] ++ emptyCheck 45

theorem placement_assumed_absent : ∃ s s' r r', run step (initial .simulate) absentRun = some s ∧
    step s (recordAt 46) = some s' ∧ s'.journal.row "operation-1" = some r' ∧
    r'.recoveryDisposition = some .assumedAbsent ∧ s.journal.row "operation-1" = some r ∧ Absent s'.journal r := by
  have hrun : ((run (restrict step NonDecreasing) (initial .simulate) absentRun).bind (fun s =>
      (restrict step NonDecreasing s (recordAt 46)).bind (fun s' => (s.journal.row "operation-1").bind (fun r =>
        (s'.journal.row "operation-1").map (fun r' => (r.recoveryDisposition, r'.recoveryDisposition)))))) =
      some (none, some .assumedAbsent) := by
    decide +kernel
  simp only [Option.bind_eq_some_iff, Option.map_eq_some_iff, Prod.mk.injEq] at hrun
  obtain ⟨s, hrun, s', hlast, r, hr, r', hr', hnone, habsent⟩ := hrun
  have hpath : Path step NonDecreasing (initial .simulate) absentRun s := path_of_restricted hrun
  have hreach : Reachable .simulate NonDecreasing s := ⟨initial .simulate, absentRun, rfl, hpath⟩
  obtain ⟨hstep, hok⟩ := Option.filter_eq_some_iff.mp hlast
  obtain ⟨r₀, hr₀, hold | hnow⟩ :=
    (assumed_absence_never_premature hreach).2.1 _ s' "operation-1" r' hstep (of_decide_eq_true hok) hr' habsent
  · rw [hr] at hr₀
    cases hr₀
    rw [hnone] at hold
    cases hold
  · rw [hr] at hr₀
    cases hr₀
    exact ⟨s, s', r, r', hpath.run_eq, hstep, hr', habsent, hr, hnow⟩

end MoomooMcp.System
