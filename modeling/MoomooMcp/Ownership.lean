import MoomooMcp.Frames

namespace MoomooMcp.Executor

open ExecutionStore CriticalSection Preparation

/-- The row an admission of the request wrote. -/
def Admitted (env : Environment) (c : Request) (row : Row) : Prop :=
  ∃ account uuid, row = (admission env c account uuid).row

/-- Nothing happened to the row since its admission. -/
structure Fresh (j : Journal) (row : Row) : Prop where
  stored : j.row row.operationId = some row
  quiet : ¬j.pending row.operationId

def Owned (j : Journal) (row : Row) : Prop := ∃ r, j.row row.operationId = some r

def InFlight (j : Journal) (row : Row) (p : Prepared) : Prop :=
  j.row row.operationId = some (row.markDispatch p.merged)

/-- Nothing stands in the way of a dispatch. -/
def Clear (sh : Shared) : Prop := sh.journal.reviews = ∅ ∧ sh.late = []

/-- The outcome is what came back from the SDK write makes it. -/
def Answered (env : Environment) (c : Request) (p : Prepared) (sdk : Option SdkAnswer) (o : Outcome) : Prop :=
  ∃ a relock, o = sdkOutcome env c p a relock ∧ (sdk = some a ∨ sdk = none ∧ a.retOk = false)

/-- What a caller is told, against what came back from its SDK write. -/
structure Told (sdk : Option SdkAnswer) (answer : Except Exc Result) : Prop where
  error : ∀ e, answer = .error e → sdk = none
  ok : ∀ a, sdk = some a → ∃ result, answer = .ok result ∧
    result.state = (if a.retOk then .acknowledged else .unknownOutcome) ∧ result.disposition ≠ some .notSent

/-- A snapshot that is still what the journal says, of a row that still needs checks. -/
structure Current (j : Journal) (n : Snapshot) : Prop where
  stored : j.row n.row.operationId = some n.row
  checks : n.recoveryChecks = j.recoveryChecks n.row.operationId
  review : j.pending n.row.operationId ∨ n.row.recoveryDisposition = some .assumedAbsent

/-- Everything a check can conclude. -/
inductive Concludable (env : Environment) (n : Snapshot) : Conclusion → Prop
  | error {orders seen e} : Concludable env n (errorConclusion env orders seen e)
  | negative : Concludable env n (negative env n)
  | targetPending {found} : Concludable env n (plainConclusion .targetPending (defaultDelay env) found none)
  | found {found positions a} (haccount : Accounting.account env n.row found positions = .ok (some a)) :
      Concludable env n ⟨.found, ⟨found, true, outcomeText .found⟩, foundDelay env,
        some (if env = .simulate ∧ n.late = true then .lateBrokerOrderFound else a.resolution),
        some a.receipt, some a.facts⟩
  | notDispatched (henv : env = .real) : Concludable env n notDispatchedConclusion

/-- The broker showed orders that belong to the operation. -/
def Sighted (row : Row) (found : List BrokerOrder) : Prop :=
  found ≠ [] ∧ ∀ o ∈ found, Accounting.correlates row o = true

/-- What holds of a thread at each of its program points. -/
def ThreadOk (sh : Shared) : Phase → Prop
  | .admitted c row => Admitted sh.environment c row ∧ Fresh sh.journal row ∧ row.operationId ∉ sh.starts
  | .entered c row | .prepared c row _ =>
      Admitted sh.environment c row ∧ Fresh sh.journal row ∧ row.operationId ∉ sh.starts ∧ Clear sh
  | .marked c row p =>
      Admitted sh.environment c row ∧ InFlight sh.journal row p ∧ row.operationId ∉ sh.starts ∧ Clear sh
  | .calling c row p => Admitted sh.environment c row ∧ InFlight sh.journal row p ∧ Clear sh
  | .finishing c row p sdk o => Admitted sh.environment c row ∧ InFlight sh.journal row p ∧
      (sdk = none → row.operationId ∉ sh.starts) ∧ Clear sh ∧ Answered sh.environment c p sdk o
  | .refusing c row _ => Admitted sh.environment c row ∧ row.operationId ∉ sh.starts ∧
      (Fresh sh.journal row ∨ Owned sh.journal row ∧ sh.store.failed ≠ none)
  | .done _ sdk answer => Told sdk answer
  | .checking n _ => Current sh.journal n
  | .correlated n _ found =>
      Current sh.journal n ∧ sh.environment = .simulate ∧ n.late = true ∧ Sighted n.row found
  | .accounting n _ _ => Current sh.journal n ∧ (sh.environment = .simulate → n.late = true →
      (n.row.operationId, Reason.lateOrderFound) ∈ sh.journal.reviews)
  | .concluding n _ k => Current sh.journal n ∧ Concludable sh.environment n k
  | .idle | .validated _ | .queued _ | .admitting _ | .checked _ => True

/-- What the journal says about every SDK write ever started, and about every
outcome that is still unknown. -/
structure Durable (j : Journal) (starts : List OperationId) : Prop where
  sent : ∀ op ∈ starts, ∃ r, j.row op = some r ∧ r.marker = true ∧ r.state ≠ .admitted ∧ r.state ≠ .refused
  once : starts.Nodup
  flagged : ∀ k r, j.row k = some r → r.state = .unknownOutcome → r.recoveryDisposition = none → j.pending k

/-- A row in dispatch is explained by a thread that still owes its outcome, by an
outcome that could not be written, or by a condemned store. -/
def Explained (store : Store) (late : List LateFailure) (threads : Tid → Phase) (k : OperationId) : Prop :=
  store.failed ≠ none ∨ (∃ f ∈ late, f.result.operationId = k) ∨
    ∃ t row, (threads t).flight = some row ∧ row.operationId = k

section Admitted

variable {env : Environment} {c : Request} {row : Row}

theorem Admitted.operationId (h : Admitted env c row) : row.operationId = c.operationId := by
  obtain ⟨_, _, rfl⟩ := h
  rfl

theorem Admitted.state (h : Admitted env c row) : row.state = .admitted := by
  obtain ⟨_, _, rfl⟩ := h
  rfl

theorem Admitted.recoveryDisposition (h : Admitted env c row) : row.recoveryDisposition = none := by
  obtain ⟨_, _, rfl⟩ := h
  rfl

theorem Admitted.kind (h : Admitted env c row) : row.kind = c.kind := by
  obtain ⟨_, _, rfl⟩ := h
  rfl

theorem Admitted.request (h : Admitted env c row) : row.request = c.params := by
  obtain ⟨_, _, rfl⟩ := h
  rfl

end Admitted

section Outcomes

variable {c : Request} {p : Prepared} {sdk : Option SdkAnswer} {o : Outcome}

theorem relocked_type (e : Exc) (relock : Option String) : (relocked e relock).type = e.type := by
  cases relock <;> rfl

/-- Without an acknowledgement the outcome is unknown. -/
theorem sdkOutcome_failed (env : Environment) (c : Request) (p : Prepared) {a : SdkAnswer}
    (relock : Option String) (h : a.retOk = false) :
    ∃ error receipt observed, sdkOutcome env c p a relock = unresolved error receipt observed := by
  cases env with
  | simulate =>
      cases a with
      | raised | refused => exact ⟨_, _, _, rfl⟩
      | ok => cases h
  | real =>
      have hreal : ∀ message, dispatched c a = .error ⟨.orderOutcomeUnknown, message, false⟩ →
          ∃ error receipt observed, realOutcome c p a relock = unresolved error receipt observed := by
        intro message hd
        have hn : (relocked ⟨.orderOutcomeUnknown, message, false⟩ relock).type ≠ .orderReceiptUnreadable := by
          rw [relocked_type]
          simp
        have ho : realOutcome c p a relock =
            unresolved (relocked ⟨.orderOutcomeUnknown, message, false⟩ relock).message
              (observeAcknowledgement a) p.observed := by
          unfold realOutcome
          rw [hd]
          exact if_neg hn
        exact ⟨_, _, _, ho⟩
      cases a with
      | raised | refused => exact hreal _ rfl
      | ok => cases h

/-- An acknowledgement stays one, whether or not its receipt can be read. -/
theorem sdkOutcome_ok (env : Environment) (c : Request) (p : Prepared) {a : SdkAnswer}
    (relock : Option String) (h : a.retOk = true) :
    (∃ error receipt, sdkOutcome env c p a relock = unreadable error receipt p.observed) ∨
      ∃ receipt, sdkOutcome env c p a relock = acknowledged receipt p.observed := by
  cases a with
  | raised | refused => cases h
  | ok id receipt serialization =>
      cases env with
      | simulate =>
          cases receipt with
          | error message => exact .inl ⟨_, _, rfl⟩
          | ok receipt =>
              cases serialization with
              | none => exact .inr ⟨_, rfl⟩
              | some message => exact .inl ⟨_, _, rfl⟩
      | real =>
          cases receipt with
          | error message =>
              exact .inl ⟨_, _, if_pos (relocked_type _ relock)⟩
          | ok receipt =>
              cases serialization with
              | none => exact .inr ⟨_, rfl⟩
              | some message => exact .inl ⟨_, _, rfl⟩

/-- An outcome is unknown and asks for a review, or acknowledged, in which case
it retires the guards its preparation observed. -/
theorem Answered.cases {env : Environment} (h : Answered env c p sdk o) :
    (o.state = .unknownOutcome ∧ o.disposition = .possiblySent ∧ o.reason = some .unresolvedOutcome ∧
        ∀ a, sdk = some a → a.retOk = false) ∨
      (o.state = .acknowledged ∧ o.disposition = .acknowledged ∧
        (o.reason = none ∨ o.reason = some .receiptUnreadable) ∧ o.observedModifications = p.observed ∧
        ∃ a, sdk = some a ∧ a.retOk = true) := by
  obtain ⟨a, relock, rfl, hsdk⟩ := h
  cases hr : a.retOk with
  | false =>
      obtain ⟨_, _, _, ho⟩ := sdkOutcome_failed env c p relock hr
      rw [ho]
      refine .inl ⟨rfl, rfl, rfl, ?_⟩
      rintro b rfl
      rcases hsdk with hb | ⟨hb, _⟩
      · cases hb; exact hr
      · cases hb
  | true =>
      have hsome : sdk = some a := by
        rcases hsdk with hb | ⟨_, hf⟩
        · exact hb
        · rw [hr] at hf; cases hf
      rcases sdkOutcome_ok env c p relock hr with ⟨_, _, ho⟩ | ⟨_, ho⟩
      · rw [ho]; exact .inr ⟨rfl, rfl, .inr rfl, rfl, a, hsome, hr⟩
      · rw [ho]; exact .inr ⟨rfl, rfl, .inl rfl, rfl, a, hsome, hr⟩

theorem Answered.sent {env : Environment} (h : Answered env c p sdk o) :
    o.state ≠ .admitted ∧ o.state ≠ .refused ∧ o.state ≠ .dispatching := by
  rcases h.cases with ⟨ho, _⟩ | ⟨ho, _⟩ <;> simp [ho]

theorem Answered.reviewed {env : Environment} (h : Answered env c p sdk o) (ho : o.state = .unknownOutcome) :
    o.reason ≠ none := by
  rcases h.cases with ⟨_, _, hreason, _⟩ | ⟨hack, _⟩
  · simp [hreason]
  · rw [hack] at ho; cases ho

/-- What the caller is told follows what came back from its SDK write. -/
theorem Answered.told {env : Environment} {op : OperationId} {result : Result} (h : Answered env c p sdk o)
    (hresult : Reports op o result) : Told sdk (.ok result) := by
  refine ⟨fun e he => (by cases he), fun a ha => ⟨result, rfl, ?_⟩⟩
  rcases h.cases with ⟨hstate, hdisp, _, hret⟩ | ⟨hstate, hdisp, _, _, b, hb, hret⟩
  · refine ⟨?_, fun hn => ?_⟩
    · rw [hresult.state, hstate, hret a ha]; rfl
    · have hd := hresult.disposition _ hn
      rw [hdisp] at hd
      cases hd
  · rw [ha] at hb
    cases hb
    refine ⟨?_, fun hn => ?_⟩
    · rw [hresult.state, hstate, hret]; rfl
    · have hd := hresult.disposition _ hn
      rw [hdisp] at hd
      cases hd

end Outcomes

section Checks

variable {env : Environment} {n : Snapshot} {started : ℚ} {orders : Except Exc (List BrokerOrder)}
  {found : List BrokerOrder} {positions : Accounting.PositionQuery}

theorem evidenceFailure_cases {orders : List BrokerOrder} {seen : Bool} {e : Exc} {ph : Phase}
    (h : evidenceFailure env n started orders seen e = ph) :
    (∃ r, ph = .checked r) ∨ ∃ k, ph = .concluding n started k ∧ Concludable env n k := by
  unfold evidenceFailure at h
  split at h
  · exact .inl ⟨_, h.symm⟩
  · exact .inr ⟨_, h.symm, .error⟩

theorem observe_cases {ph : Phase} (h : observe env n started orders = ph) :
    (∃ r, ph = .checked r) ∨ (∃ k, ph = .concluding n started k ∧ Concludable env n k) ∨
      ∃ found, Sighted n.row found ∧
        (ph = .correlated n started found ∧ env = .simulate ∧ n.late = true ∨
          ph = .accounting n started found ∧ ¬(env = .simulate ∧ n.late = true)) := by
  unfold observe at h
  split at h
  · exact (evidenceFailure_cases h).imp_right .inl
  · next orders' _ =>
      split at h
      · exact .inr (.inl ⟨_, h.symm, .negative⟩)
      · next hfound =>
          have hsighted : Sighted n.row (Accounting.matchingOrders n.row orders') :=
            ⟨by simpa using hfound, fun o ho => (List.mem_filter.mp ho).2⟩
          split at h
          · next hlate => exact .inr (.inr ⟨_, hsighted, .inl ⟨h.symm, hlate⟩⟩)
          · next hlate => exact .inr (.inr ⟨_, hsighted, .inr ⟨h.symm, hlate⟩⟩)

theorem account_cases {ph : Phase} (h : account env n started found positions = ph) :
    (∃ r, ph = .checked r) ∨ ∃ k, ph = .concluding n started k ∧ Concludable env n k := by
  unfold account at h
  split at h
  · exact evidenceFailure_cases h
  · split at h
    · exact evidenceFailure_cases h
    · exact .inr ⟨_, h.symm, .targetPending⟩
    · next haccount => exact .inr ⟨_, h.symm, .found haccount⟩

end Checks

end MoomooMcp.Executor
