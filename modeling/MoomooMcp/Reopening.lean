import MoomooMcp.StoreOpening

namespace MoomooMcp.ExecutionStore

open CrashPoints Durable

def Contents.row : Contents → OperationId → Option Columns
  | .first l, k => l.operations.lookup k
  | .second l, k => (l.operations.lookup k).map ObservedRow.toColumns
  | .third j, k => (j.row k).map Row.columns

def Contents.epochs : Contents → List Epoch
  | .first l => l.epochs
  | .second l => l.epochs
  | .third j => j.epochs

def Contents.reviews : Contents → Finset (OperationId × Reason)
  | .first l => l.reviews
  | .second l => l.reviews
  | .third j => j.reviews

def Contents.audits : Contents → List Audit
  | .first l => l.audits
  | .second l => l.audits
  | .third j => j.audits

def Contents.checks : Contents → List Check
  | .first _ | .second _ => []
  | .third j => j.checks

/-- The columns of a row once its dispatch is known to have been interrupted. -/
def Columns.recoverDispatch (r : Columns) : Columns :=
  if r.state = .dispatching then
    { r with
      state := .unknownOutcome
      disposition := .possiblySent
      error := some "Recovered dispatch without durable outcome" }
  else r

variable {o : Options} {c : Contents} {j j' : Journal} {epoch : Epoch} {fault : Fault} {st : Store} {d d' : Disk}
  {new : List Epoch} {k : OperationId}

@[simp] theorem migrate_epochs (c : Contents) : c.migrate.epochs = c.epochs := by
  cases c <;> rfl

@[simp] theorem migrate_environment (c : Contents) : c.migrate.environment = c.environment := by
  cases c <;> rfl

@[simp] theorem migrate_reviews (c : Contents) : c.migrate.reviews = c.reviews := by
  cases c <;> rfl

@[simp] theorem migrate_audits (c : Contents) : c.migrate.audits = c.audits := by
  cases c <;> rfl

@[simp] theorem migrate_checks (c : Contents) : c.migrate.checks = c.checks := by
  cases c <;> rfl

theorem upgrade_row (l : Legacy ObservedRow.key) (k : OperationId) :
    l.upgrade.row k = (l.operations.lookup k).map ObservedRow.upgrade :=
  Table.lookup_map _ _ (fun _ => rfl) k

/-- The migration leaves the columns that there were as they were. -/
theorem migrate_row (c : Contents) (k : OperationId) : (c.migrate.row k).map Row.columns = c.row k := by
  cases c with
  | first l =>
      have hadd : l.addModificationObserved.operations.lookup k =
          (l.operations.lookup k).map Columns.addModificationObserved :=
        Table.lookup_map _ _ (fun _ => rfl) k
      rw [Contents.migrate, upgrade_row, hadd, Option.map_map, Option.map_map]
      exact congrFun Option.map_id (l.operations.lookup k)
  | second l =>
      rw [Contents.migrate, upgrade_row, Option.map_map]
      rfl
  | third j => rfl

@[simp] theorem migrate_third (j : Journal) : (Contents.third j).migrate = j := rfl

@[simp] theorem columns_state (r : Row) : r.columns.state = r.state := rfl

theorem columns_recoverDispatch (r : Row) : r.recoverDispatch.columns = r.columns.recoverDispatch := by
  by_cases hd : r.state = .dispatching
  · simp [Row.recoverDispatch, Columns.recoverDispatch, hd, Row.columns]
  · simp [Row.recoverDispatch, Columns.recoverDispatch, hd]

theorem recoverDispatch_state (r : Row) : r.recoverDispatch.state ≠ .dispatching := by
  by_cases hd : r.state = .dispatching
  · simp [Row.recoverDispatch, hd]
  · simp [Row.recoverDispatch, hd]

theorem recoverDispatch_again (r : Row) : r.recoverDispatch.recoverDispatch = r.recoverDispatch := by
  rw [Row.recoverDispatch, if_neg (recoverDispatch_state r)]

/-- A journal after it was opened from these contents, under one or more new epochs. -/
structure Recovered (c : Contents) (new : List Epoch) (j : Journal) : Prop where
  environment : j.environment = c.environment
  epochs : j.epochs = c.epochs ++ new
  rows : ∀ k, j.row k = (c.migrate.row k).map Row.recoverDispatch
  reviews : c.reviews ⊆ j.reviews
  dispatched : ∀ k r, c.row k = some r → r.state = .dispatching → (k, .recoveredDispatch) ∈ j.reviews
  gated : ∀ k r, j.row k = some r → r.awaitsReview = true → (k, .startupReview) ∈ j.reviews
  known : ∀ p ∈ j.reviews, p ∈ c.reviews ∨ ∃ r, c.row p.1 = some r
  checks : j.checks = c.checks
  audits : j.audits = c.audits

/-- Apart from interrupted dispatches the columns of every row are what they were. -/
theorem Recovered.columns (h : Recovered c new j) (k : OperationId) :
    (j.row k).map Row.columns = (c.row k).map Columns.recoverDispatch := by
  rw [h.rows, ← migrate_row, Option.map_map, Option.map_map]
  congr 1
  funext r
  exact columns_recoverDispatch r

theorem Startup.recovered (h : Startup epoch c.migrate j') : Recovered c [epoch] j' where
  environment := by rw [h.rest]; simp
  epochs := by rw [h.rest]; simp
  rows := h.rows
  reviews p hp := (h.reviews p.1 p.2).mpr (.inl (by simpa using hp))
  dispatched k r hr hd := by
    rw [← migrate_row] at hr
    obtain ⟨row, hrow, rfl⟩ := Option.map_eq_some_iff.mp hr
    exact (h.reviews _ _).mpr (.inr (.inl ⟨rfl, row, hrow, hd⟩))
  gated k r hr hw := (h.reviews _ _).mpr (.inr (.inr ⟨rfl, r, hr, hw⟩))
  known p hp := by
    have hrow : ∀ r, c.migrate.row p.1 = some r → ∃ r', c.row p.1 = some r' := by
      intro r hr
      rw [← migrate_row, hr]
      exact ⟨_, rfl⟩
    rcases (h.reviews p.1 p.2).mp hp with hold | ⟨-, r, hr, -⟩ | ⟨-, r, hr, -⟩
    · exact .inl (by simpa using hold)
    · exact .inr (hrow r hr)
    · rw [h.rows] at hr
      obtain ⟨r', hr', -⟩ := Option.map_eq_some_iff.mp hr
      exact .inr (hrow r' hr')
  checks := by rw [h.rest]; simp
  audits := by rw [h.rest]; simp

theorem Recovered.again (h : Recovered c new j) (hs : Startup epoch j j') : Recovered c (new ++ [epoch]) j' where
  environment := by rw [hs.rest]; exact h.environment
  epochs := by rw [hs.rest, ← List.append_assoc, ← h.epochs]
  rows k := by
    rw [hs.rows, h.rows, Option.map_map]
    congr 1
    funext r
    exact recoverDispatch_again r
  reviews p hp := (hs.reviews p.1 p.2).mpr (.inl (h.reviews hp))
  dispatched k r hr hd := (hs.reviews _ _).mpr (.inl (h.dispatched k r hr hd))
  gated k r hr hw := (hs.reviews _ _).mpr (.inr (.inr ⟨rfl, r, hr, hw⟩))
  known p hp := by
    have hrow : ∀ r, j.row p.1 = some r → ∃ r', c.row p.1 = some r' := by
      intro r hr
      have hcolumns := h.columns p.1
      rw [hr] at hcolumns
      obtain ⟨r', hr', -⟩ := Option.map_eq_some_iff.mp hcolumns.symm
      exact ⟨r', hr'⟩
    rcases (hs.reviews p.1 p.2).mp hp with hold | ⟨-, r, hr, -⟩ | ⟨-, r, hr, -⟩
    · exact h.known p hold
    · exact .inr (hrow r hr)
    · rw [hs.rows] at hr
      obtain ⟨r', hr', -⟩ := Option.map_eq_some_iff.mp hr
      exact .inr (hrow r' hr')
  checks := by rw [hs.rest]; exact h.checks
  audits := by rw [hs.rest]; exact h.audits

/-- What crashes of an opening leave of a journal: itself, the whole migration of
it, or a recovered journal. -/
inductive Carried (c : Contents) : Disk → Prop
  | same : Carried c (.file (some c))
  | migrated : Carried c (journal c.migrate)
  | recovered (new : List Epoch) (j : Journal) (h : Recovered c new j) : Carried c (journal j)

theorem recover_crashes (h : d' ∈ (recover epoch fault j).crashes d) :
    d' = d ∨ d' = journal j ∨ ∃ j', Startup epoch j j' ∧ d' = journal j' := by
  unfold recover at h
  split at h
  · next st' j' hr =>
      obtain ⟨hb, -, -⟩ := transact_ok hr
      rcases mem_crashes_write.mp h with rfl | hw
      · exact .inl rfl
      · exact .inr (.inr ⟨j', startup_ok hb, by simpa using hw⟩)
  · next e st' j' hr =>
      obtain ⟨-, ⟨rfl, -⟩ | ⟨_, hb, -⟩⟩ := transact_cases hr
      · rcases mem_crashes_write.mp h with rfl | hw
        · exact .inl rfl
        · exact .inr (.inl (by simpa using hw))
      · rcases mem_crashes_write.mp h with rfl | hw
        · exact .inl rfl
        · exact .inr (.inr ⟨j', startup_ok hb, by simpa using hw⟩)

theorem probe_ok {contents : Option Contents} (h : probe o contents = .ok c) :
    contents = some c ∧ c.environment = o.environment := by
  cases contents with
  | none => cases h
  | some c' =>
      rw [probe] at h
      split_ifs at h with he
      cases h
      exact ⟨rfl, he⟩

theorem openFile_crashes (h : d' ∈ (openFile o epoch fault (some c)).crashes d) :
    d' = d ∨ d' = journal c.migrate ∨ ∃ j', Startup epoch c.migrate j' ∧ d' = journal j' := by
  unfold openFile at h
  split at h
  · exact .inl (by simpa using h)
  · next c' hp =>
      obtain ⟨hc, -⟩ := probe_ok hp
      cases hc
      split_ifs at h
      · rcases mem_crashes_write.mp h with rfl | h
        · exact .inl rfl
        · exact .inr (by simpa using recover_crashes h)
      · exact recover_crashes h

/-- One more opening, crashed at any point, keeps what was carried. -/
theorem Carried.opened (h : Carried c d) (hd : d' ∈ (openStore o epoch fault).crashes d) : Carried c d' := by
  cases h with
  | same =>
      rcases openFile_crashes hd with rfl | rfl | ⟨j', hs, rfl⟩
      · exact .same
      · exact .migrated
      · exact .recovered _ _ hs.recovered
  | migrated =>
      rcases openFile_crashes hd with rfl | rfl | ⟨j', hs, rfl⟩
      · exact .migrated
      · exact .migrated
      · have hstart : Startup epoch c.migrate j' := hs
        exact .recovered _ _ hstart.recovered
  | recovered new j hj =>
      rcases openFile_crashes hd with rfl | rfl | ⟨j', hs, rfl⟩
      · exact .recovered _ _ hj
      · exact .recovered _ _ hj
      · exact .recovered _ _ (hj.again hs)

/-- What any number of attempts to open the store can leave of a journal, where
each has its options, its epoch and its fault and may crash anywhere. -/
def Attempted : Disk → Disk → Prop :=
  Interrupted (fun i : Options × Epoch × Fault => openStore i.1 i.2.1 i.2.2)

theorem Attempted.carried (h : Attempted (.file (some c)) d) : Carried c d :=
  Interrupted.preserves h (fun _ _ _ hs hd => hs.opened hd) .same

theorem recover_ok (h : (recover epoch fault j).result d = .ok st) :
    st = ⟨epoch, false, none⟩ ∧ ∃ j', Startup epoch j j' ∧ (recover epoch fault j).left d = journal j' := by
  unfold recover at h ⊢
  split at h
  · next st' j' hr =>
      obtain ⟨hb, rfl, -⟩ := transact_ok hr
      obtain ⟨_, -, hst⟩ := result_bind.mp h
      cases hst
      exact ⟨rfl, j', startup_ok hb, rfl⟩
  · obtain ⟨_, -, hst⟩ := result_bind.mp h
    cases hst

theorem openFile_ok (h : (openFile o epoch fault (some c)).result d = .ok st) :
    st = ⟨epoch, false, none⟩ ∧
      ∃ j', Startup epoch c.migrate j' ∧ (openFile o epoch fault (some c)).left d = journal j' := by
  unfold openFile at h ⊢
  split at h
  · cases h
  · next c' hp =>
      obtain ⟨hc, -⟩ := probe_ok hp
      cases hc
      split_ifs at h ⊢
      · obtain ⟨_, hw, h⟩ := result_bind.mp h
        dsimp only
        rw [left_bind hw]
        exact recover_ok h
      · exact recover_ok h

theorem Carried.reopened (h : Carried c d) (hok : (openStore o epoch fault).result d = .ok st) :
    st = ⟨epoch, false, none⟩ ∧ ∃ new j, Recovered c (new ++ [epoch]) j ∧ epoch ∉ c.epochs ++ new ∧
      (openStore o epoch fault).left d = journal j := by
  cases h with
  | same =>
      obtain ⟨rfl, j', hs, hl⟩ := openFile_ok hok
      exact ⟨rfl, [], j', hs.recovered, by simpa using hs.fresh, hl⟩
  | migrated =>
      obtain ⟨rfl, j', hs, hl⟩ := openFile_ok hok
      have hstart : Startup epoch c.migrate j' := hs
      exact ⟨rfl, [], j', hstart.recovered, by simpa using hstart.fresh, hl⟩
  | recovered new j hj =>
      obtain ⟨rfl, j', hs, hl⟩ := openFile_ok hok
      exact ⟨rfl, new, j', hj.again hs, by simpa [hj.epochs] using hs.fresh, hl⟩

/-- Without a fault a new epoch opens every journal of the environment. -/
theorem openFile_succeeds (henv : c.environment = o.environment) (hfresh : epoch ∉ c.epochs) :
    (openFile o epoch .none (some c)).result d = .ok ⟨epoch, false, none⟩ := by
  have hstartup : ∃ j', c.migrate.startup epoch = .ok ((), j') := by
    refine ⟨_, if_neg ?_⟩
    simpa using hfresh
  obtain ⟨j', hj'⟩ := hstartup
  have hrecover : ∀ d, (recover epoch .none c.migrate).result d = .ok ⟨epoch, false, none⟩ := by
    intro d
    simp only [recover, transact, hj']
    rfl
  unfold openFile
  rw [probe, if_pos henv]
  dsimp only
  split_ifs
  · exact result_bind.mpr ⟨(), rfl, hrecover _⟩
  · exact hrecover d

end MoomooMcp.ExecutionStore
