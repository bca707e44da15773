import MoomooMcp.KnownOperations
import MoomooMcp.Machine
import MoomooMcp.WriteBoundary

namespace MoomooMcp

open Intent OrderErrors OrderRules Accounts ClientAuthorization PreDispatch

namespace Accounts

variable {policy : AccountPolicy} {grants : Grants} {accId : String} {account : Account} {market : Option String}

/-- Of the listed rows only those of one account are eligible. -/
def Only (eligible : AccountRow → Prop) (rows : List AccountRow) (account : Account) : Prop :=
  (∃ row ∈ rows, eligible row ∧ row.accId = account) ∧ ∀ row ∈ rows, eligible row → row.accId = account

theorem only_of_ids {eligible : AccountRow → Bool} {rows : List AccountRow}
    (h : ∀ a, a ∈ (rows.filter eligible).map (·.accId) ↔ a = account) : Only (fun row => eligible row = true) rows account := by
  constructor
  · obtain ⟨row, hrow, haccount⟩ := List.mem_map.mp ((h account).mpr rfl)
    obtain ⟨hmem, heligible⟩ := List.mem_filter.mp hrow
    exact ⟨row, hmem, heligible, haccount⟩
  · intro row hmem heligible
    exact (h row.accId).mp (List.mem_map_of_mem (List.mem_filter.mpr ⟨hmem, heligible⟩))

theorem getAccounts_none {accounts : Except Exc (List AccountRow)} : getAccounts accounts none = accounts := by
  cases accounts with
  | error e => rfl
  | ok rows =>
      have hall : rows.filter (fun row => accountAccessAllowed none row.trdEnv (toString row.accId) false) = rows :=
        List.filter_eq_self.mpr (fun _ _ => rfl)
      exact congrArg Except.ok hall

/-- The end of a paper resolution, once the rows are listed. -/
theorem picked_ok {accounts : Except Exc (List AccountRow)} {requested : Account} {twoMany : Exc} {unverified : Exc}
    (h : (do
      let rows ← getAccounts accounts none
      let ids := ((rows.filter (paperEligible policy grants)).map (·.accId)).dedup
      if requested ≠ 0 then
        if requested ∈ ids then return requested
        else .error unverified
      else
        match ids with
        | [account] => return account
        | _ => .error twoMany) = Except.ok account) :
    ∃ rows, accounts = .ok rows ∧ account ∈ (rows.filter (paperEligible policy grants)).map (·.accId) ∧
      if requested = 0 then Only (fun row => paperEligible policy grants row = true) rows account
      else account = requested := by
  obtain ⟨rows, hrows, h⟩ := Checks.bind_ok.mp h
  rw [getAccounts_none] at hrows
  refine ⟨rows, hrows, ?_⟩
  by_cases h0 : requested = 0
  · rw [if_neg (not_not.mpr h0)] at h
    rw [if_pos h0]
    split at h
    · next a hids =>
        cases h
        have hmem : ∀ b, b ∈ (rows.filter (paperEligible policy grants)).map (·.accId) ↔ b = account := by
          intro b
          rw [← List.mem_dedup, hids, List.mem_singleton]
        exact ⟨(hmem account).mpr rfl, only_of_ids hmem⟩
    · cases h
  · rw [if_pos h0] at h
    rw [if_neg h0]
    split at h
    · next hmem =>
        cases h
        exact ⟨List.mem_dedup.mp hmem, rfl⟩
    · cases h

/-- The account of a paper mutation. -/
theorem paperAccount_ok {accounts : Except Exc (List AccountRow)} (h : paperAccount policy accounts grants accId = .ok account) :
    accountAccessAllowed grants "SIMULATE" (toString account) true = true ∧ account ∈ policy.simulateAllowlist ∧
      ∃ requested rows, exactAccountId accId = .ok requested ∧ accounts = .ok rows ∧
        if requested = 0 then Only (fun row => paperEligible policy grants row = true) rows account
        else account = requested := by
  obtain ⟨requested, hrequested, h⟩ := Checks.bind_ok.mp h
  have hpicked : ∃ rows, accounts = .ok rows ∧ account ∈ (rows.filter (paperEligible policy grants)).map (·.accId) ∧
      if requested = 0 then Only (fun row => paperEligible policy grants row = true) rows account
      else account = requested := by
    by_cases h0 : requested = 0
    · rw [if_neg (not_not.mpr h0)] at h
      exact picked_ok h
    · rw [if_pos h0] at h
      by_cases hunlisted : requested ∉ policy.simulateAllowlist
      · rw [if_pos hunlisted] at h
        cases h
      · rw [if_neg hunlisted] at h
        obtain ⟨_, -, h⟩ := Checks.bind_ok.mp h
        exact picked_ok h
  obtain ⟨rows, hrows, hmem, htarget⟩ := hpicked
  obtain ⟨row, hrow, rfl⟩ := List.mem_map.mp hmem
  obtain ⟨-, heligible⟩ := List.mem_filter.mp hrow
  simp only [paperEligible, Bool.and_eq_true] at heligible
  exact ⟨heligible.2, by simpa using heligible.1.1.2, requested, rows, hrequested, hrows, htarget⟩

/-- The account of a REAL mutation. -/
theorem resolveExact_ok {accounts : Except Exc (List AccountRow)} {env : String} {requested : Account} {write : Bool}
    (h : resolveExact policy accounts grants env market requested write = .ok account) :
    accountAccessAllowed grants env (toString account) write = true ∧
      (policy.allowlistApplies env = true → account ∈ policy.realAccIds) ∧
      if requested = 0 then
        ∃ rows, accounts = .ok rows ∧ Only (fun row => eligible policy grants env market row = true) rows account
      else account = requested := by
  unfold resolveExact at h
  by_cases h0 : requested = 0
  · rw [if_neg (not_not.mpr h0)] at h
    rw [if_pos h0]
    obtain ⟨found, hfound, h⟩ := Checks.bind_ok.mp h
    rw [eligibleAccounts, getAccounts_none] at hfound
    cases haccounts : accounts with
    | error e =>
        rw [haccounts] at hfound
        cases hfound
    | ok rows =>
        rw [haccounts] at hfound
        cases hfound
        split at h
        · next row hrow =>
            obtain ⟨_, haccess, h⟩ := Checks.bind_ok.mp h
            cases h
            have hmem : row ∈ rows.filter (eligible policy grants env market) := by rw [hrow]; exact List.mem_singleton_self row
            have hlisted := (List.mem_filter.mp hmem).2
            simp only [eligible, Bool.and_eq_true] at hlisted
            refine ⟨access_ok_iff.mp haccess, fun happlies => ?_, rows, rfl, only_of_ids (fun a => ?_)⟩
            · simpa [happlies] using hlisted.1.2
            · rw [hrow]
              simp
        · cases h
        · cases h
  · rw [if_pos h0] at h
    rw [if_neg h0]
    by_cases happlies : policy.allowlistApplies env = true
    · rw [if_pos happlies] at h
      obtain ⟨_, hlist, h⟩ := Checks.bind_ok.mp h
      obtain ⟨_, haccess, h⟩ := Checks.bind_ok.mp h
      cases h
      refine ⟨access_ok_iff.mp haccess, fun _ => ?_, rfl⟩
      by_contra hunlisted
      rw [AccountPolicy.checkRealAllowlist, if_pos hunlisted, ite_eq_iff] at hlist
      rcases hlist with ⟨-, h⟩ | ⟨-, h⟩ <;> cases h
    · rw [if_neg happlies] at h
      obtain ⟨_, haccess, h⟩ := Checks.bind_ok.mp h
      cases h
      exact ⟨access_ok_iff.mp haccess, fun hyes => absurd hyes happlies, rfl⟩

end Accounts

namespace Sessions

/-- A mutation call, with what it finds. -/
inductive Call
  | paper (w : PaperBoundary.World) (method : String) (p : Parameters)
  | real (w : RealBoundary.World) (method : String) (p : Parameters)

/-- The rows of both journals, by their operations. -/
abbrev Journals := Environment → String → Option StoredRow

namespace Call

def env : Call → Environment
  | .paper _ _ _ => .simulate
  | .real _ _ _ => .real

def parameters : Call → Parameters
  | .paper _ _ p | .real _ _ p => p

def grants : Call → Grants
  | .paper w _ _ => w.grants
  | .real w _ _ => w.grants

def operation (c : Call) : String := c.parameters.operationId.getD ""

def outcome : Call → Outcome
  | .paper w method p => PaperBoundary.call w method p
  | .real w method p => RealBoundary.call w method p

def accounts : Call → Except Exc (List AccountRow)
  | .paper w _ _ => w.accounts.lift
  | .real w _ _ => w.accounts.lift

/-- The listed accounts that a call without an account could target. -/
def Eligible : Call → AccountRow → Prop
  | .paper w _ _, row => paperEligible w.policy w.grants row = true
  | .real w method p, row => ∃ kind market, RealBoundary.front w method p = .ok kind ∧
      RealBoundary.preflight w method kind p = .ok market ∧ eligible w.policy w.grants "REAL" market row = true

/-- The accounts that the deployment lets any client trade. -/
def Listed : Call → Account → Prop
  | .paper w _ _, account => account ∈ w.policy.simulateAllowlist
  | .real w _ _, account => w.policy.allowlistApplies "REAL" = true → account ∈ w.policy.realAccIds

end Call

/-- A row whose text was just made. -/
def stamped (account : Account) (text : Except Exc String)
    (readable : ∀ s, text = .ok s → ∃ env kind params, Json.loads s = .ok (.object (PaperIdentity.readRequest env account kind params))) :
    Except Exc StoredRow :=
  match text, readable with
  | .ok s, readable => .ok ⟨account, s, readable s rfl⟩
  | .error e, _ => .error e

theorem stamped_ok {account : Account} {text : Except Exc String}
    {readable : ∀ s, text = .ok s → ∃ env kind params, Json.loads s = .ok (.object (PaperIdentity.readRequest env account kind params))}
    {row : StoredRow} : stamped account text readable = .ok row ↔ row.account = account ∧ text = .ok row.canonical := by
  cases text with
  | error e => exact iff_of_false nofun nofun
  | ok s =>
      obtain ⟨a, s', hr⟩ := row
      constructor
      · intro h
        cases h
        exact ⟨rfl, rfl⟩
      · rintro ⟨rfl, h⟩
        cases h
        rfl

theorem paper_readable {env op s : String} {account : Account} {fields : List (String × Value)}
    (h : PaperIdentity.canonicalizeRequest env account op fields = .ok s) :
    ∃ env kind params, Json.loads s = .ok (.object (PaperIdentity.readRequest env account kind params)) := by
  obtain ⟨_, l, -, -, -, hload⟩ := PaperIdentity.canonicalizeRequest_loads h
  exact ⟨env, op, l, hload⟩

/-- The row that a call stores where it is admitted. -/
def Call.row : Call → Except Exc StoredRow
  | .paper w method p => do
      let (kind, fields) ← PaperRequests.paperRequest w.policy method p
      let account ← paperAccount w.policy w.accounts.lift w.grants p.accId
      stamped account (PaperIdentity.canonicalizeRequest "SIMULATE" account (PaperIdentity.opType kind) fields)
        (fun _ => paper_readable)
  | .real w method p => do
      let kind ← RealBoundary.front w method p
      let account ← RealBoundary.resolved w method kind p
      stamped account (RealIdentity.canonicalRealRequest account kind (RealBoundary.original p))
        (fun _ => RealBoundary.canonicalRealRequest_readable)

/-- The journals once a call has ended. -/
def Call.after (js : Journals) (c : Call) : Journals :=
  if c.outcome.admitted then
    match c.row with
    | .ok row => fun env op => if env = c.env ∧ op = c.operation then some row else js env op
    | .error _ => js
  else js

/-- A lookup at some earlier time: rows stay, so that what it found is there still. -/
def Sees (now : Option StoredRow) (found : Except String (Option StoredRow)) : Prop :=
  ∀ row, found = .ok (some row) → now = some row

/-- What a call finds is what the journals hold when it inserts its row, or held before. -/
def Call.Consistent (js : Journals) (c : Call) : Prop :=
  match c with
  | .paper w _ _ =>
      (∀ row, w.late = some row → js .simulate c.operation = some row) ∧ Sees (js .simulate c.operation) w.lookup ∧
        Sees (js .simulate c.operation) w.lookupAgain ∧ ∀ found, w.insert = .ok found → found = js .simulate c.operation
  | .real w _ _ =>
      (∀ found, RealBoundary.rowOf w.late w.lookup = .ok (some found) → js .real c.operation = some found) ∧
        (∀ found, RealBoundary.rowOf w.lateAgain w.lookupAgain = .ok (some found) → js .real c.operation = some found) ∧
        ∀ found, w.insert = .ok found → found = js .real c.operation

/-- An account that a call may write to: its grants include the account, the deployment
lists it, and the call names it or could mean no other. -/
structure Target (c : Call) (account : Account) : Prop where
  granted : c.grants.includes c.env account true
  listed : c.Listed account
  named : ∃ requested, exactAccountId c.parameters.accId = .ok requested ∧
    if requested = 0 then ∃ rows, c.accounts = .ok rows ∧ Only c.Eligible rows account else account = requested

variable {c : Call} {js js' : Journals} {env : Environment} {op : String} {row : StoredRow}

theorem simulate_includes {grants : Grants} {account : Account}
    (h : accountAccessAllowed grants "SIMULATE" (toString account) true = true) : grants.includes .simulate account true :=
  (accountAccessAllowed_iff (ofText_text .simulate)).mp h

theorem real_includes {grants : Grants} {account : Account}
    (h : accountAccessAllowed grants "REAL" (toString account) true = true) : grants.includes .real account true :=
  (accountAccessAllowed_iff (ofText_text .real)).mp h

/-- An admitted call stores a row of an account that it may write to, where there was none. -/
theorem admitted_row (hc : c.Consistent js) (h : c.outcome.admitted = true) :
    js c.env c.operation = none ∧ ∃ row, c.row = .ok row ∧ Target c row.account := by
  cases c with
  | paper w method p =>
      rcases @PaperBoundary.call_ending w p method with ⟨e, he⟩ | ⟨kind, fields, hentered, -, hending⟩
      · rw [Call.outcome, he] at h
        cases h
      · rw [Call.outcome] at h
        generalize PaperBoundary.call w method p = o at h hending
        cases hending with
        | failed => cases h
        | known => cases h
        | dispatched hadmits =>
            obtain ⟨account, haccount⟩ := hadmits.reserved.account
            obtain ⟨s, hs⟩ : ∃ s, PaperIdentity.canonicalizeRequest "SIMULATE" account (PaperIdentity.opType kind) fields = .ok s :=
              PaperBoundary.written_iff.mpr hadmits.reserved.written
            obtain ⟨hmay, hlisted, requested, rows, hrequested, hrows, hnamed⟩ := paperAccount_ok haccount
            refine ⟨(hc.2.2.2 none hadmits.inserted).symm, ⟨account, s, paper_readable hs⟩, ?_, simulate_includes hmay, hlisted,
              requested, hrequested, ?_⟩
            · exact Checks.bind_ok.mpr ⟨(kind, fields), hentered.given, Checks.bind_ok.mpr ⟨account, haccount,
                stamped_ok.mpr ⟨rfl, hs⟩⟩⟩
            · by_cases h0 : requested = 0
              · rw [if_pos h0] at hnamed ⊢
                exact ⟨rows, hrows, hnamed⟩
              · rwa [if_neg h0] at hnamed ⊢
  | real w method p =>
      rcases @RealBoundary.call_ending w method p with ⟨e, he⟩ | ⟨kind, hentered, hending⟩
      · rw [Call.outcome, he] at h
        cases h
      · rw [Call.outcome] at h
        generalize RealBoundary.call w method p = o at h hending
        cases hending with
        | failed => cases h
        | known => cases h
        | dispatched hadmits =>
            obtain ⟨account, s, haccount, hs⟩ := hadmits.resolved
            obtain ⟨market, hmarket, hresolve⟩ := Checks.bind_ok.mp haccount
            obtain ⟨requested, hrequested, hresolve⟩ := Checks.bind_ok.mp hresolve
            obtain ⟨hmay, hlisted, hnamed⟩ := resolveExact_ok hresolve
            refine ⟨(hc.2.2 none hadmits.inserted).symm, ⟨account, s, RealBoundary.canonicalRealRequest_readable hs⟩, ?_,
              real_includes hmay, hlisted, requested, hrequested, ?_⟩
            · exact Checks.bind_ok.mpr ⟨kind, hentered.checked, Checks.bind_ok.mpr ⟨account, haccount,
                stamped_ok.mpr ⟨rfl, hs⟩⟩⟩
            · by_cases h0 : requested = 0
              · rw [if_pos h0] at hnamed ⊢
                obtain ⟨rows, hrows, ⟨row, hrow, heligible, haccountId⟩, honly⟩ := hnamed
                refine ⟨rows, hrows, ⟨row, hrow, ⟨kind, market, hentered.checked, hmarket, heligible⟩, haccountId⟩, ?_⟩
                rintro other hother ⟨kind', market', hkind', hmarket', heligible'⟩
                cases hentered.checked.symm.trans hkind'
                cases hmarket.symm.trans hmarket'
                exact honly other hother heligible'
              · rwa [if_neg h0] at hnamed ⊢

/-- A call that starts its write has admitted its operation. -/
theorem writes_admitted (h : c.outcome.result = .ok .writeStarts) : c.outcome.admitted = true := by
  cases c with
  | paper w method p =>
      rw [Call.outcome] at h ⊢
      rcases @PaperBoundary.call_ending w p method with ⟨e, he⟩ | ⟨kind, fields, -, -, hending⟩
      · rw [he] at h
        cases h
      · generalize PaperBoundary.call w method p = o at h hending ⊢
        cases hending with
        | failed => cases h
        | known hfound hretry =>
            cases h
            cases (PaperBoundary.retry_ok_iff.mp hretry).1
        | dispatched => exact PaperBoundary.dispatch_admitted.1
  | real w method p =>
      rw [Call.outcome] at h ⊢
      rcases @RealBoundary.call_ending w method p with ⟨e, he⟩ | ⟨kind, -, hending⟩
      · rw [he] at h
        cases h
      · generalize RealBoundary.call w method p = o at h hending ⊢
        cases hending with
        | failed => cases h
        | known hfound hretry =>
            cases h
            cases (RealBoundary.retry_ok_iff.mp hretry).1
        | dispatched => exact RealBoundary.dispatch_admitted.1

/-- A call asks for what a row records, under an account that it names or leaves open. -/
def Call.Same : Call → StoredRow → Prop
  | .paper w method p, row => ∃ kind fields, PaperRequests.paperRequest w.policy method p = .ok (kind, fields) ∧
      PaperBoundary.SameRequest kind fields p.accId row
  | .real w method p, row => ∃ kind, RealBoundary.front w method p = .ok kind ∧ RealBoundary.SameRequest kind p row

/-- A stored result is that of the row of the operation. -/
theorem returned_row (hc : c.Consistent js) (h : c.outcome.result = .ok .storedResult) :
    ∃ row, js c.env c.operation = some row ∧ c.grants.includes c.env row.account true ∧ c.Same row := by
  cases c with
  | paper w method p =>
      obtain ⟨kind, fields, row, hentered, hfound, hmay, hsame⟩ := PaperBoundary.call_returns_iff.mp h
      refine ⟨row, ?_, simulate_includes hmay, kind, fields, hentered.given, hsame⟩
      obtain ⟨hlate, hlookup, hagain, hinsert⟩ := hc
      cases hfound with
      | late h => exact hlate row h
      | stored _ h => exact hlookup row h
      | meanwhile _ h => exact hagain row h
      | inserted _ _ _ h => exact (hinsert _ h).symm
  | real w method p =>
      obtain ⟨kind, row, hentered, hfound, hmay, hsame⟩ := RealBoundary.call_returns_iff.mp h
      refine ⟨row, ?_, real_includes hmay, kind, hentered.checked, hsame⟩
      obtain ⟨hlookup, hagain, hinsert⟩ := hc
      cases hfound with
      | stored h => exact hlookup row h
      | meanwhile _ h => exact hagain row h
      | inserted _ _ _ h => exact (hinsert _ h).symm

theorem after_unadmitted (h : c.outcome.admitted = false) : c.after js = js := by
  rw [Call.after, h]
  rfl

theorem after_admitted (h : c.outcome.admitted = true) (hrow : c.row = .ok row) : c.after js c.env c.operation = some row := by
  rw [Call.after, if_pos h, hrow]
  exact if_pos ⟨rfl, rfl⟩

/-- The call of an operation that has no row, which is to get one. -/
def Call.admits (env : Environment) (op : String) (c : Call) : Bool :=
  c.outcome.admitted && decide (c.env = env) && decide (c.operation = op)

theorem after_other (h : c.admits env op = false) : c.after js env op = js env op := by
  cases hadmitted : c.outcome.admitted with
  | false => rw [after_unadmitted hadmitted]
  | true =>
      have hother : ¬(env = c.env ∧ op = c.operation) := by
        rintro ⟨rfl, rfl⟩
        simp [Call.admits, hadmitted] at h
      rw [Call.after, if_pos hadmitted]
      cases c.row with
      | ok row => exact if_neg hother
      | error e => rfl

/-- A row stays what it is. -/
theorem after_kept (hc : c.Consistent js) (h : js env op = some row) : c.after js env op = some row := by
  cases hadmits : c.admits env op with
  | false => rw [after_other hadmits, h]
  | true =>
      obtain ⟨⟨hadmitted, rfl⟩, rfl⟩ : (c.outcome.admitted = true ∧ c.env = env) ∧ c.operation = op := by
        simpa [Call.admits] using hadmits
      obtain ⟨hnone, -⟩ := admitted_row hc hadmitted
      rw [hnone] at h
      cases h

def next (js : Journals) (c : Call) : Option Journals := some (c.after js)

/-- Calls one after another, each in the order of its insertion. -/
abbrev Session (js : Journals) (calls : List Call) (js' : Journals) : Prop :=
  Machine.Path next (fun js c _ => c.Consistent js) js calls js'

variable {calls : List Call}

theorem session_kept (h : Session js calls js') (hrow : js env op = some row) : js' env op = some row :=
  h.invariant (P := fun js => js env op = some row) hrow
    (fun _ _ _ hrow hnext hc => Option.some.inj hnext ▸ after_kept hc hrow)

/-- An operation is admitted at most once, and not at all if it has a row. -/
theorem session_admits (h : Session js calls js') (env : Environment) (op : String) :
    calls.countP (Call.admits env op) + (js env op).toList.length = (js' env op).toList.length := by
  induction h with
  | nil => simp
  | @cons js₀ js₁ _ c _ hnext hc _ ih =>
      cases Option.some.inj hnext
      rw [List.countP_cons, ← ih]
      by_cases hadmits : c.admits env op = true
      · obtain ⟨⟨hadmitted, rfl⟩, rfl⟩ : (c.outcome.admitted = true ∧ c.env = env) ∧ c.operation = op := by
          simpa [Call.admits] using hadmits
        obtain ⟨hnone, row, hrow, -⟩ := admitted_row hc hadmitted
        rw [hnone, after_admitted hadmitted hrow, if_pos hadmits]
        rfl
      · rw [after_other (by simpa using hadmits), if_neg hadmits]
        rfl

/-- What every call of a session leaves behind: the row that it wrote under, or whose
result it was given. -/
theorem session_row (h : Session js calls js') : ∀ c ∈ calls,
    (c.outcome.result = .ok .writeStarts → ∃ row, js' c.env c.operation = some row ∧ Target c row.account) ∧
    (c.outcome.result = .ok .storedResult →
      ∃ row, js' c.env c.operation = some row ∧ c.grants.includes c.env row.account true ∧ c.Same row) := by
  induction h with
  | nil => exact fun c hmem => absurd hmem List.not_mem_nil
  | @cons js₀ js₁ _ c calls hnext hc hrest ih =>
      cases Option.some.inj hnext
      rw [List.forall_mem_cons]
      refine ⟨⟨fun hwrites => ?_, fun hreturns => ?_⟩, ih⟩
      · have hadmitted := writes_admitted hwrites
        obtain ⟨-, row, hrow, htarget⟩ := admitted_row hc hadmitted
        exact ⟨row, session_kept hrest (after_admitted hadmitted hrow), htarget⟩
      · obtain ⟨row, hrow, hgranted, hsame⟩ := returned_row hc hreturns
        exact ⟨row, session_kept hrest (after_kept hc hrow), hgranted, hsame⟩

/-- The call of an operation whose write it starts. -/
def Call.writes (env : Environment) (op : String) (c : Call) : Bool :=
  match c.outcome.result with
  | .ok .writeStarts => decide (c.env = env) && decide (c.operation = op)
  | _ => false

theorem admits_of_writes (h : c.writes env op = true) : c.admits env op = true := by
  rw [Call.writes] at h
  split at h
  · next hwrites =>
      rw [Call.admits, writes_admitted hwrites, Bool.true_and]
      exact h
  · cases h

/-- A paper order of an operation that no journal holds. -/
def placed : Call := .paper WriteBoundary.paperWorld "place_order" (WriteBoundary.order 3)

theorem placed_session : Session (fun _ _ => none) [placed] (placed.after (fun _ _ => none)) := by
  have hconsistent : placed.Consistent (fun _ _ => none) := by
    refine ⟨?_, ?_, ?_, ?_⟩
    · intro row h
      cases h
    · intro row h
      cases h
    · intro row h
      cases h
    · intro found h
      cases h
      rfl
  exact .cons rfl hconsistent (.nil _)

theorem placed_writes : placed.outcome.result = .ok .writeStarts := by decide +kernel

end Sessions
end MoomooMcp
