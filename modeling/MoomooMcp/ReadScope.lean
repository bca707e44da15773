import MoomooMcp.QuerySnapshots
import MoomooMcp.Sessions
import MoomooMcp.TradePreparation

namespace MoomooMcp

open Intent OrderRules Accounts ClientAuthorization PreDispatch

namespace TradingControls

/-- What `get` shows of a row: its status, unless it has expired. -/
structure PreparedView where
  row : Prepared
  expired : Bool

def Prepared.expiredAt (row : Prepared) (now : ℚ) : Bool :=
  (row.status = .pending ∨ row.status = .approved) ∧ row.expiresAt ≤ now

def get (st : Store) (db : Database) (fault : Bool) (now : ℚ) (requestId : RequestId) :
    Except Exc PreparedView × Store × Database :=
  let found := transact st db fault (fun db =>
    match db.prepared.lookup requestId with
    | none => .error (.raised (valueError "Prepared request does not exist"))
    | some row => .ok (row, db))
  (found.1.map (fun row => ⟨row, row.expiredAt now⟩), found.2)

end TradingControls

namespace TradePreparation

open TradingControls

/-- `get_prepared_trade`: the stored intent, where the client may read its account. -/
def getPreparedTrade (configured : Bool) (grants : Grants) (st : Store) (db : Database) (fault : Bool) (now : ℚ)
    (requestId : RequestId) : Except Exc PreparedView × Store × Database :=
  if !configured then (.error (valueError "Durable trading controls are not configured"), st, db)
  else
    let found := TradingControls.get st db fault now requestId
    (do let view ← found.1
        checkAccountAccess grants view.row.parameters.trdEnv view.row.parameters.accId false
        return view, found.2)

/-- An account is readable, as the texts of a request spell it. -/
def Readable (grants : Grants) (trdEnv accId : String) : Prop := accountAccessAllowed grants trdEnv accId false = true

variable {grants : Grants}

theorem getPreparedTrade_readable {configured fault : Bool} {st : Store} {db : Database} {now : ℚ} {requestId : RequestId}
    {view : PreparedView} (h : (getPreparedTrade configured grants st db fault now requestId).1 = .ok view) :
    Readable grants view.row.parameters.trdEnv view.row.parameters.accId := by
  rw [getPreparedTrade] at h
  split at h
  · cases h
  · obtain ⟨view', -, h⟩ := Checks.bind_ok.mp h
    obtain ⟨_, haccess, h⟩ := Checks.bind_ok.mp h
    cases h
    exact access_ok_iff.mp haccess

/-- A page is of a snapshot whose account the client may read, whoever made it. -/
theorem page_readable {s : QuerySnapshots.Snapshot} {key : String} {offset limit : ℕ} {found : QuerySnapshots.QueryPage}
    (h : QuerySnapshots.page grants s key offset limit = .ok found) :
    Readable grants found.scope.trdEnv found.scope.accId := by
  obtain ⟨_, haccess, h⟩ := Checks.bind_ok.mp h
  cases h
  exact access_ok_iff.mp haccess

theorem continued_readable {c : QuerySnapshots.Cache} {cursor : Value} {query : QuerySnapshots.Query} {now : ℚ}
    {found : QuerySnapshots.QueryPage} (h : (QuerySnapshots.continuePage c grants cursor query now).1 = .ok found) :
    Readable grants found.scope.trdEnv found.scope.accId := by
  unfold QuerySnapshots.continuePage at h
  split at h
  · cases h
  · split at h
    · cases h
    · dsimp only at h
      split at h
      · cases h
      · split at h
        · cases h
        · split at h
          · cases h
          · exact page_readable h
  · cases h

theorem pages_readable {c : QuerySnapshots.Cache} {call : TradeQueries.Call} {found : QuerySnapshots.QueryPage}
    (h : (TradeQueries.page c call).1 = .ok found) : Readable call.grants found.scope.trdEnv found.scope.accId := by
  unfold TradeQueries.page at h
  split at h
  · cases h
  · rw [QuerySnapshots.create] at h
    split at h
    · exact page_readable h
    · exact page_readable h
  · exact continued_readable h

/-- The rows of an environment that a client may read. -/
def candidates (grants : Grants) (env : Environment) (rows : List AccountRow) : List Account :=
  ((filterReadable grants rows).filter (fun row => row.trdEnv = env.text)).map (·.accId)

theorem candidates_readable {env : Environment} {rows : List AccountRow} {account : Account}
    (h : account ∈ candidates grants env rows) :
    grants.includes env account false ∧ ∃ row ∈ rows, row.trdEnv = env.text ∧ row.accId = account := by
  obtain ⟨row, hrow, rfl⟩ := List.mem_map.mp h
  obtain ⟨hreadable, henv⟩ := List.mem_filter.mp hrow
  obtain ⟨hrow, haccess⟩ := List.mem_filter.mp hreadable
  have henv : row.trdEnv = env.text := by simpa using henv
  exact ⟨(accountAccessAllowed_iff (henv ▸ ofText_text env)).mp haccess, row, hrow, henv, rfl⟩

/-- The account of a read is one that the grants include and the broker lists, and the
call names it or no other is readable. -/
theorem resolveReadAccount_ok {accounts : Except Exc (List AccountRow)} {trdEnv accId environment : String} {account : Account}
    (h : resolveReadAccount accounts grants trdEnv accId = .ok (environment, account)) :
    ∃ env rows requested, environment = env.text ∧ exactAccountId accId = .ok requested ∧ accounts = .ok rows ∧
      account ∈ candidates grants env rows ∧
      (if requested = 0 then candidates grants env rows = [account] else account = requested) := by
  obtain ⟨named, hnamed, h⟩ := Checks.bind_ok.mp h
  obtain ⟨requested, hrequested, h⟩ := Checks.bind_ok.mp h
  obtain ⟨env, rfl⟩ : ∃ env : Environment, named = env.text := by
    rw [readEnvironment] at hnamed
    split at hnamed
    · next env _ => exact ⟨env, (Except.ok.inj hnamed).symm⟩
    · cases hnamed
  by_cases h0 : requested = 0
  · rw [if_neg (not_not.mpr h0)] at h
    obtain ⟨readable, hreadable, h⟩ := Checks.bind_ok.mp h
    obtain ⟨rows, hrows, rfl⟩ := Checks.map_ok.mp hreadable
    by_cases hzero : 0 ∈ candidates grants env rows
    · rw [candidates] at hzero
      rw [if_pos hzero] at h
      cases h
    · rw [candidates] at hzero
      rw [if_neg hzero, if_neg (not_not.mpr h0)] at h
      split at h
      · next a hids =>
          cases h
          have honly : candidates grants env rows = [account] := hids
          exact ⟨env, rows, requested, rfl, hrequested, hrows, honly ▸ List.mem_singleton_self _, by rw [if_pos h0, honly]⟩
      · cases h
      · cases h
  · rw [if_pos h0] at h
    obtain ⟨_, -, h⟩ := Checks.bind_ok.mp h
    obtain ⟨readable, hreadable, h⟩ := Checks.bind_ok.mp h
    obtain ⟨rows, hrows, rfl⟩ := Checks.map_ok.mp hreadable
    by_cases hzero : 0 ∈ candidates grants env rows
    · rw [candidates] at hzero
      rw [if_pos hzero] at h
      cases h
    · rw [candidates] at hzero
      rw [if_neg hzero, if_pos h0] at h
      split at h
      · next hmem =>
          cases h
          exact ⟨env, rows, account, rfl, hrequested, hrows, hmem, by rw [if_neg h0]⟩
      · cases h

theorem writable_named {policy : AccountPolicy} {operation trdEnv : String} (h : policy.checkWrite operation trdEnv = .ok ()) :
    ∃ env : Environment, Text.normalize trdEnv = env.text := by
  rw [AccountPolicy.checkWrite] at h
  dsimp only at h
  split at h
  · next hwritable =>
      rw [AccountPolicy.writable] at hwritable
      split at hwritable
      · cases hwritable
      · exact ⟨.simulate, of_decide_eq_true hwritable⟩
      · rcases of_decide_eq_true hwritable with hsimulate | hreal
        · exact ⟨.simulate, hsimulate⟩
        · exact ⟨.real, hreal⟩
  · cases h

/-- A request is prepared for an account that its client may read and write, which it
names or which is the only eligible one. -/
theorem preparedParameters_ok {w : World} {st : Store} {method : String} {p request : Parameters}
    (h : preparedParameters w st method p = .ok request) :
    ∃ env account, Text.normalize request.trdEnv = Environment.text env ∧ request.accId = toString account ∧
      w.grants.includes env account true ∧ w.grants.includes env account false ∧
      (w.policy.allowlistApplies env.text = true → account ∈ w.policy.realAccIds) := by
  rw [preparedParameters] at h
  cases hconfigured : w.configured with
  | false =>
      rw [hconfigured] at h
      cases h
  | true =>
      rw [hconfigured] at h
      obtain ⟨bound, -, h⟩ := Checks.bind_ok.mp h
      obtain ⟨_, hvalid, h⟩ := Checks.bind_ok.mp h
      obtain ⟨market, -, h⟩ := Checks.bind_ok.mp h
      obtain ⟨account, haccount, h⟩ := Checks.bind_ok.mp h
      obtain ⟨_, hread, h⟩ := Checks.bind_ok.mp h
      cases h
      obtain ⟨env, henv⟩ : ∃ env : Environment, Text.normalize bound.trdEnv = env.text := by
        rw [validatePreparation] at hvalid
        split at hvalid
        · cases hvalid
        · obtain ⟨_, hwrite, -⟩ := Checks.bind_ok.mp hvalid
          exact writable_named hwrite
      obtain ⟨requested, -, hresolve⟩ := Checks.bind_ok.mp haccount
      rw [henv] at hresolve
      obtain ⟨hwrite, hlisted, -⟩ := resolveExact_ok hresolve
      have hofText : Environment.ofText bound.trdEnv = some env := by
        rw [Environment.ofText, henv]
        cases env <;> decide
      refine ⟨env, account, henv, rfl, ?_, ?_, hlisted⟩
      · exact (accountAccessAllowed_iff (ofText_text env)).mp hwrite
      · exact (accountAccessAllowed_iff hofText).mp (access_ok_iff.mp hread)

end TradePreparation
end MoomooMcp
