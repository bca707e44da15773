import MoomooMcp.Transactions

namespace MoomooMcp.ExecutionStore

variable {j j' : Journal} {epoch : Epoch} {op : OperationId}

/-- An update of the row of one operation, as a map over all rows. -/
def Row.only (op : OperationId) (f : Row → Row) (r : Row) : Row := if r.operationId = op then f r else r

theorem Row.only_self {f : Row → Row} {r : Row} (h : r.operationId = op) : Row.only op f r = f r := by
  simp [Row.only, h]

theorem Row.only_other {f : Row → Row} {r : Row} (h : r.operationId ≠ op) : Row.only op f r = r := by
  simp [Row.only, h]

theorem row_key {r : Row} (h : j.row op = some r) : r.operationId = op := Table.lookup_key h

theorem mem_rows {r : Row} : r ∈ j.operations.rows ↔ j.row r.operationId = some r := Table.mem_iff_lookup

theorem lookup_modify_only (T : Table Row.operationId) (f : Row → Row) (h : ∀ r, (f r).operationId = r.operationId)
    (k : OperationId) : (T.modify op f h).lookup k = (T.lookup k).map (Row.only op f) := by
  rw [Table.lookup_modify]
  cases hl : T.lookup k with
  | none => simp
  | some r =>
      have hk := Table.lookup_key hl
      by_cases ho : k = op
      · simp [ho, Row.only_self (hk.trans ho)]
      · simp [ho, Row.only_other (fun h => ho (hk.symm.trans h))]

structure Admits (epoch : Epoch) (a : Admission) (j j' : Journal) : Prop where
  fresh : j.row a.operationId = none
  current : a.epoch = epoch
  unblocked : j.reviews = ∅
  tag : a.orderTag ≠ none → ∀ op r, j.row op = some r → r.orderTag ≠ a.orderTag
  rows : ∀ op, j'.row op = if op = a.operationId then some a.row else j.row op
  rest : j' = { j with operations := j'.operations }

theorem admitOperation_ok {reviewed : Bool} {a : Admission} {row : Row} {created : Bool}
    (h : j.admitOperation epoch reviewed a = .ok ((row, created), j')) :
    (created = false ∧ j' = j ∧ j.row a.operationId = some row) ∨
      (created = true ∧ row = a.row ∧ reviewed = true ∧ Admits epoch a j j') := by
  unfold Journal.admitOperation at h
  split at h
  · next existing he =>
      cases h
      exact .inl ⟨rfl, rfl, he⟩
  · next hn =>
      split_ifs at h with hepoch hready haccount htag
      cases h
      rw [not_or, not_not] at hready
      refine .inr ⟨rfl, rfl, by simpa using hready.1, hn, by simpa using hepoch, hready.2, ?_, ?_, rfl⟩
      · intro ht op r hr hsame
        exact htag ⟨ht, r, mem_rows.mpr (by rw [row_key hr]; exact hr), hsame⟩
      · intro op
        exact Table.lookup_insert j.operations a.row hn op

structure Marks (op : OperationId) (merged : Params) (j j' : Journal) : Prop where
  waiting : ∃ r, j.row op = some r ∧ r.state = .admitted
  rows : ∀ k, j'.row k = (j.row k).map (Row.only op (Row.markDispatch merged))
  rest : j' = { j with operations := j'.operations, markers := j.markers ++ [op] }

theorem markDispatch_ok {merged : Params} (h : j.markDispatch op merged = .ok ((), j')) : Marks op merged j j' := by
  unfold Journal.markDispatch at h
  split at h
  · next r hr =>
      split_ifs at h with hs
      cases h
      exact ⟨⟨r, hr, hs⟩, lookup_modify_only _ (Row.markDispatch merged) (fun _ => rfl), rfl⟩
  · cases h

/-- What an outcome write makes of a row: the named one is concluded, and an
acknowledgement retires the guards it carries. -/
def Row.concluded (op : OperationId) (o : Outcome) (r : Row) : Row :=
  if o.state = .acknowledged then (Row.only op (Row.outcome o) r).observe o.observedModifications
  else Row.only op (Row.outcome o) r

theorem concluded_self {o : Outcome} {r : Row} (h : r.operationId = op) :
    (Row.concluded op o r).operationId = op ∧ (Row.concluded op o r).state = o.state ∧
      (Row.concluded op o r).disposition = o.disposition := by
  unfold Row.concluded
  rw [Row.only_self h]
  split
  · unfold Row.observe
    split <;> exact ⟨h, rfl, rfl⟩
  · exact ⟨h, rfl, rfl⟩

theorem concluded_state {o : Outcome} {r : Row} (h : r.operationId = op) :
    (Row.concluded op o r).state = o.state :=
  (concluded_self h).2.1

def noted (op : OperationId) (reason : Option Reason) (reviews : Finset (OperationId × Reason)) :
    Finset (OperationId × Reason) :=
  match reason with
  | some reason => insert (op, reason) reviews
  | none => reviews

structure Concludes (op : OperationId) (o : Outcome) (j j' : Journal) : Prop where
  rows : ∀ k, j'.row k = (j.row k).map (Row.concluded op o)
  reviews : j'.reviews = noted op o.reason j.reviews
  rest : j' = { j with operations := j'.operations, reviews := j'.reviews }

theorem outcome_ok {o : Outcome} (h : j.outcome op o = .ok ((), j')) : Concludes op o j j' := by
  unfold Journal.outcome at h
  by_cases hk : o.reason ≠ none ∧ j.row op = none
  · rw [if_pos hk] at h
    cases h
  rw [if_neg hk] at h
  cases h
  refine ⟨fun k => ?_, rfl, rfl⟩
  have hwritten : (j.operations.modify op (Row.outcome o) (fun _ => rfl)).lookup k =
      (j.row k).map (Row.only op (Row.outcome o)) := lookup_modify_only _ (Row.outcome o) (fun _ => rfl) k
  unfold Row.concluded
  by_cases ha : o.state = .acknowledged
  · simp only [Journal.row, ha, if_true, Table.lookup_modifyAll]
    rw [hwritten, Option.map_map]
    rfl
  · simp only [Journal.row, ha, if_false]
    exact hwritten

structure Blocks (op : OperationId) (j j' : Journal) : Prop where
  known : ∃ r, j.row op = some r
  eq : j' = { j with reviews := insert (op, .lateOrderFound) j.reviews }

theorem blockLateOrder_ok (h : j.blockLateOrder op = .ok ((), j')) : Blocks op j j' := by
  unfold Journal.blockLateOrder at h
  split_ifs at h with hk
  cases h
  exact ⟨Option.ne_none_iff_exists'.mp hk, rfl⟩

theorem row_recordCheck (r : Recovery) (k : OperationId) :
    (j.recordCheck op r).row k = (j.row k).map (Row.only op (Row.recordCheck r)) :=
  lookup_modify_only _ (Row.recordCheck r) (fun _ => rfl) k

theorem row_resolve (r : Recovery) (resolution : Resolution) (target : State × Disposition) (audit : Audit)
    (k : OperationId) :
    (j.resolve op r resolution target audit).row k =
      (j.row k).map (Row.only op (Row.resolve r resolution target)) :=
  lookup_modify_only _ (Row.resolve r resolution target) (fun _ => rfl) k

/-- A recorded check, with the resolution it commits if there is one. -/
inductive Records (epoch : Epoch) (op : OperationId) (r : Recovery) (j : Journal) : Journal → Prop
  | check (row : Row) (hrow : j.row op = some row) (hstate : row.state = r.observedState)
      (hnone : r.resolution = none) : Records epoch op r j (j.recordCheck op r)
  | resolved (row : Row) (resolution : Resolution) (target : State × Disposition)
      (hrow : j.row op = some row) (hstate : row.state = r.observedState)
      (hsome : r.resolution = some resolution)
      (htarget : j.disposition row ((j.recordCheck op r).negatives op) r resolution = .ok target) :
      Records epoch op r j ((j.recordCheck op r).resolve op r resolution target (r.audit row resolution epoch))

theorem recordRecovery_ok {r : Recovery} (h : j.recordRecovery epoch op r = .ok ((), j')) :
    Records epoch op r j j' := by
  unfold Journal.recordRecovery at h
  split at h
  · cases h
  · next row hrow =>
      split_ifs at h with hstate
      rw [not_not] at hstate
      split at h
      · next hnone =>
          cases h
          exact .check row hrow hstate hnone
      · next resolution hsome =>
          split at h
          · cases h
          · next target htarget =>
              cases h
              exact .resolved row resolution target hrow hstate hsome htarget

theorem mem_requirements {T : Table Row.operationId} {p : Row → Bool} {reason reason' : Reason} {k : OperationId} :
    (k, reason') ∈ requirements T.rows p reason ↔ reason' = reason ∧ ∃ r, T.lookup k = some r ∧ p r = true := by
  simp only [requirements, List.mem_toFinset, List.mem_map, List.mem_filter, Prod.mk.injEq]
  constructor
  · rintro ⟨r, ⟨hr, hp⟩, rfl, rfl⟩
    exact ⟨rfl, r, Table.mem_iff_lookup.mp hr, hp⟩
  · rintro ⟨rfl, r, hr, hp⟩
    exact ⟨r, ⟨Table.mem_of_lookup hr, hp⟩, Table.lookup_key hr, rfl⟩

structure Startup (epoch : Epoch) (j j' : Journal) : Prop where
  fresh : epoch ∉ j.epochs
  rows : ∀ k, j'.row k = (j.row k).map Row.recoverDispatch
  reviews : ∀ k reason, (k, reason) ∈ j'.reviews ↔ (k, reason) ∈ j.reviews ∨
    (reason = .recoveredDispatch ∧ ∃ r, j.row k = some r ∧ r.state = .dispatching) ∨
    (reason = .startupReview ∧ ∃ r, j'.row k = some r ∧ r.awaitsReview = true)
  rest : j' = { j with epochs := j.epochs ++ [epoch], operations := j'.operations, reviews := j'.reviews }

theorem startup_ok (h : j.startup epoch = .ok ((), j')) : Startup epoch j j' := by
  unfold Journal.startup at h
  split_ifs at h with hfresh
  cases h
  refine ⟨hfresh, fun k => Table.lookup_modifyAll _ _ Row.recoverDispatch_key k, fun k reason => ?_, rfl⟩
  simp only [Finset.mem_union, mem_requirements, decide_eq_true_eq, or_assoc]
  rfl

structure Reviews (j j' : Journal) : Prop where
  reviews : ∀ k reason, (k, reason) ∈ j'.reviews ↔ (k, reason) ∈ j.reviews ∨
    (reason = .startupReview ∧ ∃ r, j.row k = some r ∧ r.awaitsReview = true)
  rest : j' = { j with reviews := j'.reviews }

theorem review_ok (h : j.review = .ok ((), j')) : Reviews j j' := by
  unfold Journal.review at h
  cases h
  refine ⟨fun k reason => ?_, rfl⟩
  simp only [Finset.mem_union, mem_requirements]
  rfl

theorem mem_recoveryRows {r : Row} {due : ℚ} : r ∈ j.recoveryRows due ↔
    j.row r.operationId = some r ∧ r.nextRecoveryAt ≤ due ∧
      (j.pending r.operationId ∨ r.recoveryDisposition = some .assumedAbsent) := by
  simp only [Journal.recoveryRows, List.mem_filter, decide_eq_true_eq, mem_rows]

theorem mem_unobservedModifications {r : Row} {account : Account} {order : OrderId} :
    r ∈ j.unobservedModifications account order ↔
      j.row r.operationId = some r ∧ r.account = account ∧ r.kind = .modify ∧ r.state = .acknowledged ∧
        r.modificationObserved = false ∧ r.request.orderId.map OrderId.value = some order.value := by
  simp only [Journal.unobservedModifications, List.mem_filter, decide_eq_true_eq, mem_rows]

end MoomooMcp.ExecutionStore
