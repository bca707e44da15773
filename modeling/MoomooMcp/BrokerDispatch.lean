import MoomooMcp.RateLimit

namespace MoomooMcp.BrokerDispatch

open RateLimit

/-- The name of an operation or group, and the account where quota counts by account. -/
abbrev PoolKey := String × Option ℤ

inductive Scope
  | gateway
  | account
  | user
  deriving DecidableEq

/-- Which calls of an operation count. -/
inductive Condition
  | always
  | refresh
  | initialPage
  deriving DecidableEq

structure OperationPolicy where
  calls : ℤ
  scope : Scope
  group : String
  condition : Condition
  minIntervalSeconds : ℚ

/-- A policy without a group, that every call counts for. -/
def OperationPolicy.plain (calls : ℤ) (scope : Scope) : OperationPolicy := ⟨calls, scope, "", .always, 0⟩

/-- A query that only counts where it bypasses the cache. -/
def OperationPolicy.refresh (calls : ℤ) : OperationPolicy := ⟨calls, .account, "", .refresh, 0⟩

def operationPolicies : List (String × OperationPolicy) :=
  [("get_rehab", .plain 60 .gateway),
    ("get_corporate_actions_dividends", .plain 30 .gateway),
    ("get_earnings_calendar", .plain 60 .gateway),
    ("get_option_volatility", .plain 30 .gateway),
    ("accinfo_query", .refresh 10),
    ("position_list_query", .refresh 10),
    ("order_list_query", .refresh 10),
    ("deal_list_query", .refresh 10),
    ("history_order_list_query", .plain 10 .account),
    ("history_deal_list_query", .plain 10 .account),
    ("order_fee_query", .plain 10 .account),
    ("acctradinginfo_query", ⟨10, .account, "max_tradable", .always, 0⟩),
    ("comboorder_tradinginfo_query", ⟨10, .account, "max_tradable", .always, 0⟩),
    ("get_margin_ratio", .plain 10 .user),
    ("get_acc_cash_flow", .plain 20 .account),
    ("unlock_trade", .plain 10 .user),
    ("place_order", ⟨15, .account, "order_placement", .always, 20 / 1000⟩),
    ("place_combo_order", ⟨15, .account, "order_placement", .always, 20 / 1000⟩),
    ("modify_order", ⟨20, .account, "", .always, 40 / 1000⟩),
    ("get_market_snapshot", .plain 60 .gateway),
    ("request_history_kline", ⟨60, .gateway, "", .initialPage, 0⟩),
    ("get_option_expiration_date", .plain 60 .gateway),
    ("get_option_chain", .plain 10 .gateway),
    ("get_market_state", .plain 10 .gateway),
    ("request_trading_days", .plain 30 .gateway),
    ("get_user_security_group", .plain 10 .gateway),
    ("get_user_security", .plain 10 .gateway)]

def untimedOperations : List String :=
  ["get_history_kl_quota", "get_acc_list", "get_global_state", "get_stock_basicinfo", "get_stock_quote",
    "get_order_book", "subscribe", "unsubscribe", "query_subscription"]

/-- The policy of an operation, or the error of a missing key. -/
def policyOf (operation : String) : Except String OperationPolicy :=
  match operationPolicies.lookup operation with
  | some policy => .ok policy
  | none => .error operation

structure QuotaRequest where
  operation : String
  accountId : Option ℤ
  weight : ℤ

/-- The arguments of a call that its quota depends on. -/
structure Arguments where
  refreshCache : Bool
  pageReqKey : Bool
  accId : Option ℤ

/-- What a call of an operation counts as, if it counts. -/
def request (operation : String) (args : Arguments) : Except String (Option QuotaRequest) :=
  if operation ∈ untimedOperations then .ok none
  else do
    let policy ← policyOf operation
    if policy.condition = .refresh ∧ args.refreshCache = false then .ok none
    else if policy.condition = .initialPage ∧ args.pageReqKey then .ok none
    else if policy.scope = .account then
      if args.accId.getD 0 ≤ 0 then .error "Resolve the broker account before quota admission"
      else .ok (some ⟨operation, some (args.accId.getD 0), 1⟩)
    else .ok (some ⟨operation, none, 1⟩)

/-- The pool of a policy, for an operation and its account. -/
def OperationPolicy.pool (policy : OperationPolicy) (operation : String) (account : Option ℤ) : PoolKey :=
  (if policy.group = "" then operation else policy.group, if policy.scope = .account then account else none)

def key (r : QuotaRequest) : Except String PoolKey := do
  let policy ← policyOf r.operation
  if policy.scope = .account ∧ r.accountId.getD 0 ≤ 0 then
    .error "Account-scoped quota requires a resolved account ID"
  else .ok (policy.pool r.operation r.accountId)

/-- The limits a pool is created with. -/
def limiterPolicy (maxWait : ℚ) (r : QuotaRequest) : Except String RateLimitPolicy := do
  let key ← key r
  let policy ← policyOf r.operation
  RateLimitPolicy.new "Moomoo" key.1 policy.calls (some 30) (some (1 / 10)) (some maxWait) (some policy.minIntervalSeconds)

/-- Operations that share a pool agree on its limits, so whichever creates it decides nothing. -/
theorem shared_pool_policies : ∀ a ∈ operationPolicies, ∀ b ∈ operationPolicies,
    (a.2.pool a.1 none).1 = (b.2.pool b.1 none).1 → a.2.calls = b.2.calls ∧ a.2.scope = b.2.scope ∧
      a.2.minIntervalSeconds = b.2.minIntervalSeconds := by decide +kernel

/-- One request joins those that are merged by pool, in the order of the first of each. -/
def merge (plan : List (PoolKey × QuotaRequest)) (r : QuotaRequest) : Except String (List (PoolKey × QuotaRequest)) := do
  let key ← key r
  match plan.lookup key with
  | some earlier =>
    .ok (plan.map (fun e => if e.1 = key then (key, { r with weight := earlier.weight + r.weight }) else e))
  | none => .ok (plan ++ [(key, r)])

def merged (requests : List QuotaRequest) : Except String (List (PoolKey × QuotaRequest)) := requests.foldlM merge []

/-- A bundle as pools and weights. -/
def plan (requests : List QuotaRequest) : Except String (List (PoolKey × ℤ)) :=
  (merged requests).map (fun plan => plan.map (fun e => (e.1, e.2.weight)))

/-- The pool and request of a call, if its quota is counted. -/
def callPlan (operation : String) (args : Arguments) : Except String (Option (PoolKey × List (PoolKey × ℤ))) := do
  match ← request operation args with
  | none => .ok none
  | some r =>
    let k ← key r
    let todo ← plan [r]
    .ok (some (k, todo))

theorem merge_new {plan : List (PoolKey × QuotaRequest)} {r : QuotaRequest} {k : PoolKey} (hkey : key r = .ok k)
    (hnew : plan.lookup k = none) : merge plan r = .ok (plan ++ [(k, r)]) := by
  unfold merge
  simp only [hkey, hnew, bind, Except.bind]

theorem merged_singleton {r : QuotaRequest} {k : PoolKey} (hkey : key r = .ok k) : merged [r] = .ok [(k, r)] := by
  unfold merged
  rw [List.foldlM_cons, merge_new hkey rfl]
  rfl

theorem merged_pair {r r' : QuotaRequest} {k k' : PoolKey} (hkey : key r = .ok k) (hkey' : key r' = .ok k')
    (hne : k' ≠ k) : merged [r, r'] = .ok [(k, r), (k', r')] := by
  have hnew : List.lookup k' [(k, r)] = none := by
    rw [List.lookup_eq_none_iff]
    simp [hne]
  have hboth : merge [(k, r)] r' = .ok [(k, r), (k', r')] := merge_new hkey' hnew
  unfold merged
  rw [List.foldlM_cons, merge_new hkey rfl]
  change merge [(k, r)] r' >>= pure = _
  rw [hboth]
  rfl

theorem merge_nodup {plan plan' : List (PoolKey × QuotaRequest)} {r : QuotaRequest} (h : merge plan r = .ok plan')
    (hplan : (plan.map Prod.fst).Nodup) : (plan'.map Prod.fst).Nodup := by
  unfold merge at h
  cases hkey : key r with
  | error e => rw [hkey] at h; cases h
  | ok k =>
      rw [hkey] at h
      change (match plan.lookup k with | some earlier => _ | none => _) = _ at h
      cases hlookup : plan.lookup k with
      | some earlier =>
          rw [hlookup] at h
          cases h
          have hkeys : (plan.map (fun e => if e.1 = k then (k, { r with weight := earlier.weight + r.weight }) else e)).map
              Prod.fst = plan.map Prod.fst := by
            rw [List.map_map]
            refine List.map_congr_left (fun e _ => ?_)
            by_cases he : e.1 = k <;> simp [he]
          rw [hkeys]
          exact hplan
      | none =>
          rw [hlookup] at h
          cases h
          rw [List.map_append, List.map_singleton]
          refine hplan.append (List.nodup_singleton _) ?_
          rw [List.disjoint_singleton]
          intro hmem
          obtain ⟨e, he, hek⟩ := List.mem_map.mp hmem
          rw [List.lookup_eq_none_iff] at hlookup
          have hne := hlookup e he
          simp [hek] at hne

theorem foldlM_merge_nodup (requests : List QuotaRequest) {plan plan' : List (PoolKey × QuotaRequest)}
    (h : requests.foldlM merge plan = .ok plan') (hplan : (plan.map Prod.fst).Nodup) : (plan'.map Prod.fst).Nodup := by
  induction requests generalizing plan with
  | nil =>
      cases h
      exact hplan
  | cons r requests ih =>
      rw [List.foldlM_cons] at h
      cases hmerge : merge plan r with
      | error e => rw [hmerge] at h; cases h
      | ok next =>
          rw [hmerge] at h
          exact ih h (merge_nodup hmerge hplan)

/-- A bundle names each pool once. -/
theorem merged_nodup {requests : List QuotaRequest} {plan : List (PoolKey × QuotaRequest)}
    (h : merged requests = .ok plan) : (plan.map Prod.fst).Nodup :=
  foldlM_merge_nodup requests h .nil

end MoomooMcp.BrokerDispatch
