import MoomooMcp.Reopening
import MoomooMcp.System

namespace MoomooMcp.ExecutionStore

open CrashPoints Durable

/-- The calls of an open store. -/
inductive Call
  | admitOperation (a : Admission)
  | markDispatch (op : OperationId) (merged : Params)
  | outcome (op : OperationId) (o : Outcome)
  | review
  | blockLateOrder (op : OperationId)
  | recordRecovery (op : OperationId) (r : Recovery)
  | read

/-- What one call leaves of the store and of its journal. -/
def call (st : Store) (j : Journal) (fault : Fault) : Call → Store × Journal
  | .admitOperation a => (transact st j fault (fun j => j.admitOperation st.epoch st.reviewed a)).2
  | .markDispatch op merged => (transact st j fault (fun j => j.markDispatch op merged)).2
  | .outcome op o => (transact st j fault (fun j => j.outcome op o)).2
  | .review =>
      match transact st j fault Journal.review with
      | (.ok (), st', j') => ({ st' with reviewed := true }, j')
      | (.error _, st', j') => (st', j')
  | .blockLateOrder op => (transact st j fault (fun j => j.blockLateOrder op)).2
  | .recordRecovery op r => (transact st j fault (fun j => j.recordRecovery st.epoch op r)).2
  | .read => ((read st fault ()).2, j)

/-- A sequence of calls, each with the fault that it meets. -/
def calls (p : Store × Journal) : List (Call × Fault) → Store × Journal :=
  List.foldl (fun p c => call p.1 p.2 c.2 c.1) p

variable {st : Store} {j : Journal} {fault : Fault} {c : Call} {p : Store × Journal} {k : OperationId} {r : Row}

/-- What one call can change of the gate: the epoch stays, only a completed review
opens it, and only through the open gate does an operation come in. -/
structure Gated (st : Store) (j : Journal) (fault : Fault) (c : Call) (p : Store × Journal) : Prop where
  epoch : p.1.epoch = st.epoch
  reviewed : p.1.reviewed = true →
    st.reviewed = true ∨ c = .review ∧ (transact st j fault Journal.review).1 = .ok ()
  rows : ∀ k r, j.row k = none → p.2.row k = some r →
    st.reviewed = true ∧ j.reviews = ∅ ∧ r.admissionEpoch = st.epoch

theorem Gated.transact {β : Type} {body : Journal → Except Fail (β × Journal)}
    (h : ∀ b j', body j = .ok (b, j') → ∀ k r, j.row k = none → j'.row k = some r →
      st.reviewed = true ∧ j.reviews = ∅ ∧ r.admissionEpoch = st.epoch) :
    Gated st j fault c (transact st j fault body).2 := by
  generalize hs : ExecutionStore.transact st j fault body = outcome
  obtain ⟨result, st', j'⟩ := outcome
  obtain ⟨hd, hj⟩ := transact_cases hs
  refine ⟨hd.epoch, fun hr => .inl (hd.reviewed ▸ hr), fun k r hnone hsome => ?_⟩
  rcases hj with ⟨rfl, -⟩ | ⟨b, hb, -⟩
  · rw [hnone] at hsome
    cases hsome
  · exact h b _ hb k r hnone hsome

theorem no_new_row {f : Row → Row} {j j' : Journal} (h : ∀ k, j'.row k = (j.row k).map f) :
    ∀ k r, j.row k = none → j'.row k ≠ some r := by
  intro k r hnone hsome
  rw [h, hnone] at hsome
  cases hsome

theorem call_gated (st : Store) (j : Journal) (fault : Fault) (c : Call) : Gated st j fault c (call st j fault c) := by
  cases c with
  | admitOperation a =>
      apply Gated.transact
      rintro ⟨row, created⟩ j' hb k r hnone hsome
      rcases admitOperation_ok hb with ⟨-, rfl, -⟩ | ⟨-, -, hreviewed, ha⟩
      · rw [hnone] at hsome
        cases hsome
      · rw [ha.rows] at hsome
        split_ifs at hsome with hk
        · cases hsome
          exact ⟨hreviewed, ha.unblocked, ha.current⟩
        · rw [hnone] at hsome
          cases hsome
  | markDispatch op merged =>
      apply Gated.transact
      intro b j' hb k r hnone hsome
      exact absurd hsome (no_new_row (markDispatch_ok hb).rows k r hnone)
  | outcome op o =>
      apply Gated.transact
      intro b j' hb k r hnone hsome
      exact absurd hsome (no_new_row (outcome_ok hb).rows k r hnone)
  | review =>
      have hrows : ∀ b j', j.review = .ok (b, j') → ∀ k r, j.row k = none → j'.row k = some r →
          st.reviewed = true ∧ j.reviews = ∅ ∧ r.admissionEpoch = st.epoch := by
        intro b j' hb k r hnone hsome
        rw [(review_ok hb).rest] at hsome
        exact absurd (hnone.symm.trans hsome) nofun
      have hg : Gated st j fault .review (transact st j fault Journal.review).2 := Gated.transact hrows
      generalize hs : transact st j fault Journal.review = outcome at hg
      obtain ⟨result, st', j'⟩ := outcome
      cases result with
      | ok u =>
          simp only [call, hs]
          exact ⟨hg.epoch, fun _ => .inr ⟨rfl, by rw [hs]⟩, hg.rows⟩
      | error e =>
          simp only [call, hs]
          exact hg
  | blockLateOrder op =>
      apply Gated.transact
      intro b j' hb k r hnone hsome
      rw [(blockLateOrder_ok hb).eq] at hsome
      exact absurd (hnone.symm.trans hsome) nofun
  | recordRecovery op r =>
      apply Gated.transact
      intro b j' hb k r' hnone hsome
      have hcheck : (j.recordCheck op r).row k = none := by rw [row_recordCheck, hnone]; rfl
      cases recordRecovery_ok hb with
      | check => exact absurd (hcheck.symm.trans hsome) nofun
      | resolved row resolution target =>
          rw [row_resolve, hcheck] at hsome
          cases hsome
  | read =>
      generalize hs : read st fault () = outcome
      obtain ⟨result, st'⟩ := outcome
      obtain ⟨hd, -⟩ := read_cases hs
      simp only [call, hs]
      exact ⟨hd.epoch, fun hr => .inl (hd.reviewed ▸ hr), fun k r hnone hsome => absurd (hnone.symm.trans hsome) nofun⟩

/-- A run of calls leaves the epoch alone, and once the gate is open the review
that opened it is among the calls. -/
theorem calls_gated (p : Store × Journal) (hp : p.1.reviewed = false) (cs : List (Call × Fault)) :
    (calls p cs).1.epoch = p.1.epoch ∧
      ((calls p cs).1.reviewed = true → ∃ before fault after, cs = before ++ (.review, fault) :: after ∧
        (transact (calls p before).1 (calls p before).2 fault Journal.review).1 = .ok ()) := by
  induction cs using List.reverseRecOn with
  | nil => exact ⟨rfl, fun h => absurd (hp.symm.trans h) nofun⟩
  | append_singleton cs c ih =>
      have hg := call_gated (calls p cs).1 (calls p cs).2 c.2 c.1
      have hlast : calls p (cs ++ [c]) = call (calls p cs).1 (calls p cs).2 c.2 c.1 := List.foldl_concat _ _ _ _
      rw [hlast]
      refine ⟨hg.epoch.trans ih.1, fun h => ?_⟩
      rcases hg.reviewed h with hr | ⟨hc, hr⟩
      · obtain ⟨before, fault, after, rfl, hok⟩ := ih.2 hr
        exact ⟨before, fault, after ++ [c], by simp, hok⟩
      · refine ⟨cs, c.2, [], ?_, hr⟩
        rw [← hc]

/-- A start of the server is an opening of its journal, and a review of it where that succeeded. -/
theorem reopen_opens {o : Options} {epoch : Epoch} {reviewFault : Fault} (s : System.Sys) (henv : s.journal.environment = o.environment) :
    ∃ j, (openStore o epoch fault).left (journal s.journal) = journal j ∧
      match (openStore o epoch fault).result (journal s.journal) with
      | .ok st => (System.reopen s epoch fault reviewFault).journal = (call st j reviewFault .review).2
      | .error _ => (System.reopen s epoch fault reviewFault).journal = j := by
  have hprobe : probe o (some (.third s.journal)) = .ok (.third s.journal) := if_pos henv
  have hopen : openStore o epoch fault (journal s.journal) = recover epoch fault s.journal (journal s.journal) := by
    change openFile o epoch fault (some (.third s.journal)) (journal s.journal) = _
    unfold openFile
    rw [hprobe]
    rfl
  unfold left result
  rw [hopen]
  unfold recover System.reopen
  generalize transact ⟨epoch, false, none⟩ s.journal fault (fun j => j.startup epoch) = started
  obtain ⟨e | u, st, j⟩ := started
  · exact ⟨j, rfl, rfl⟩
  · refine ⟨j, rfl, ?_⟩
    change _ = (call st j reviewFault .review).2
    unfold call
    dsimp only
    generalize transact st j reviewFault Journal.review = reviewed
    obtain ⟨e' | u', st', j'⟩ := reviewed
    · rfl
    · rfl

/-- A new operation comes in under the epoch of this opening only, after a
completed review and while no requirement is left. -/
def AdmitsReviewed (st : Store) (j : Journal) : Prop :=
  ∀ (before : List (Call × Fault)) (fault : Fault) (c : Call) (k : OperationId) (r : Row),
    (calls (st, j) before).2.row k = none →
    (call (calls (st, j) before).1 (calls (st, j) before).2 fault c).2.row k = some r →
      r.admissionEpoch = st.epoch ∧ (calls (st, j) before).2.reviews = ∅ ∧
        ∃ earlier fault later, before = earlier ++ (.review, fault) :: later ∧
          (transact (calls (st, j) earlier).1 (calls (st, j) earlier).2 fault Journal.review).1 = .ok ()

theorem admitsReviewed (hst : st.reviewed = false) : AdmitsReviewed st j := by
  intro before fault c k r hnone hsome
  obtain ⟨hepoch, hreview⟩ := calls_gated (st, j) hst before
  obtain ⟨hr, he, ha⟩ := (call_gated _ _ fault c).rows k r hnone hsome
  exact ⟨ha.trans hepoch, he, hreview hr⟩

/-- Opening a journal again is safe from whatever crashes left: nothing that was
there is lost, the migration happens as a whole, every interrupted dispatch and
every open operation waits for a review, and until then nothing is admitted. -/
theorem reopening_safe {o : Options} {c : Contents} {d : Disk} (henv : c.environment = o.environment)
    (hd : Attempted (.file (some c)) d) :
    Carried c d ∧
    ((∀ k, (c.migrate.row k).map Row.columns = c.row k) ∧ c.migrate.reviews = c.reviews ∧ c.migrate.audits = c.audits) ∧
    (∀ epoch, (∀ c', d = .file (some c') → epoch ∉ c'.epochs) →
      (openStore o epoch .none).result d = .ok ⟨epoch, false, none⟩) ∧
    ∀ epoch fault st, (openStore o epoch fault).result d = .ok st →
      st.epoch = epoch ∧ ∃ new j, (openStore o epoch fault).left d = journal j ∧ epoch ∉ c.epochs ++ new ∧
        Recovered c (new ++ [epoch]) j ∧
        (∀ k, (j.row k).map Row.columns = (c.row k).map Columns.recoverDispatch) ∧ AdmitsReviewed st j := by
  have hcarried := hd.carried
  refine ⟨hcarried, ⟨migrate_row c, migrate_reviews c, migrate_audits c⟩, fun epoch hfresh => ?_, fun epoch fault st hok => ?_⟩
  · cases hcarried with
    | same => exact openFile_succeeds henv (hfresh _ rfl)
    | migrated => exact openFile_succeeds ((migrate_environment c).trans henv) (hfresh _ rfl)
    | recovered new j hj => exact openFile_succeeds (hj.environment.trans henv) (hfresh _ rfl)
  · obtain ⟨rfl, new, j, hj, hfresh, hl⟩ := hcarried.reopened hok
    exact ⟨rfl, new, j, hl, hfresh, hj, hj.columns, admitsReviewed rfl⟩

/-- A journal of schema 1 in the middle of a dispatch. -/
def dispatchingJournal : Contents :=
  .first ⟨.simulate, ["e1"], Table.empty.insert ⟨"op", "e1", 7, .place, ⟨.simulate, 7, .place, {}⟩, {}, .dispatching,
    .inFlight, some {}, none, none, none, [], none, true⟩ rfl, ∅, []⟩

def paperOptions : Options := ⟨"journal.db", false, .simulate⟩

/-- It was opened, which crashed right after the migration, and then opened again. -/
theorem dispatch_recovered : ∃ j, (openStore paperOptions "e3" .none).left (journal dispatchingJournal.migrate) = journal j ∧
    (j.row "op").map Row.columns = (dispatchingJournal.row "op").map Columns.recoverDispatch ∧
    ("op", .recoveredDispatch) ∈ j.reviews := by
  have hcrash : Attempted (.file (some dispatchingJournal)) (journal dispatchingJournal.migrate) :=
    .single ⟨(paperOptions, "e2", .none), .tail _ (.head _)⟩
  obtain ⟨-, -, hopens, hopened⟩ := reopening_safe (o := paperOptions) rfl hcrash
  have hfresh : ∀ c', journal dispatchingJournal.migrate = .file (some c') → "e3" ∉ c'.epochs := by
    intro c' hc
    cases hc
    decide
  obtain ⟨-, new, j, hl, -, hj, hcolumns, -⟩ := hopened "e3" .none _ (hopens "e3" hfresh)
  exact ⟨j, hl, hcolumns "op", hj.dispatched "op" _ rfl rfl⟩

end MoomooMcp.ExecutionStore
