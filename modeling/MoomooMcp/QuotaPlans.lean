import MoomooMcp.Metered
import MoomooMcp.Retention

namespace MoomooMcp.BrokerDispatch

/-- What a bundle holds for a pool. -/
def weightAt (bundle : List (PoolKey × ℤ)) (k : PoolKey) : ℤ := (bundle.lookup k).getD 0

/-- What a request asks of a pool. -/
def demand (r : QuotaRequest) (k : PoolKey) : ℤ := if (key r).toOption = some k then r.weight else 0

def total (requests : List QuotaRequest) (k : PoolKey) : ℤ := (requests.map (fun r => demand r k)).sum

/-- How many of the calls count for a pool. -/
def charge (calls : Multiset (String × Arguments)) (k : PoolKey) : ℕ := (calls.filterMap callKey).count k

variable {requests rest : List QuotaRequest} {r : QuotaRequest} {k k' : PoolKey} {bundle : List (PoolKey × ℤ)}
  {entries entries' : List (PoolKey × QuotaRequest)} {m n : Multiset (String × Arguments)}

@[simp] theorem total_nil : total [] k = 0 := rfl

@[simp] theorem total_cons : total (r :: rest) k = demand r k + total rest k := rfl

@[simp] theorem total_append : total (requests ++ rest) k = total requests k + total rest k := by
  simp [total]

theorem demand_of_key (h : key r = .ok k') : demand r k = if k' = k then r.weight else 0 := by
  rw [demand, h]
  simp [Except.toOption]

@[simp] theorem charge_zero : charge 0 k = 0 := rfl

@[simp] theorem charge_add : charge (m + n) k = charge m k + charge n k := by
  rw [charge, Multiset.filterMap_add, Multiset.count_add]
  rfl

theorem charge_singleton {c : String × Arguments} (h : callKey c = some k') : charge {c} k = if k' = k then 1 else 0 := by
  have hkeys : ({c} : Multiset (String × Arguments)).filterMap callKey = {k'} := by
    rw [← Multiset.cons_zero, Multiset.filterMap_cons_some _ _ _ h, Multiset.filterMap_zero]
    rfl
  rw [charge, hkeys, Multiset.count_singleton]
  simp only [eq_comm]

theorem charge_mono (h : m ≤ n) : charge m k ≤ charge n k := by
  obtain ⟨rest, rfl⟩ := Multiset.le_iff_exists_add.mp h
  rw [charge_add]
  exact Nat.le_add_right _ _

/-- What merged requests hold for a pool. -/
def weightIn (entries : List (PoolKey × QuotaRequest)) (k : PoolKey) : ℤ := ((entries.lookup k).map (·.weight)).getD 0

theorem weightAt_entries (entries : List (PoolKey × QuotaRequest)) :
    weightAt (entries.map (fun e => (e.1, e.2.weight))) k = weightIn entries k := by
  have hlookup : (entries.map (fun e => (e.1, e.2.weight))).lookup k = (entries.lookup k).map (·.weight) := by
    induction entries with
    | nil => rfl
    | cons e entries ih =>
        rw [List.map_cons, List.lookup_cons, List.lookup_cons, ih]
        cases k == e.1 <;> rfl
  rw [weightAt, hlookup, weightIn]

theorem lookup_replaced (r : QuotaRequest) : (entries.map (fun e => if e.1 = k' then (k', r) else e)).lookup k =
    if k' = k then (entries.lookup k).map (fun _ => r) else entries.lookup k := by
  induction entries with
  | nil => simp
  | cons e entries ih =>
      rw [List.map_cons, List.lookup_cons, List.lookup_cons, ih]
      by_cases he : e.1 = k'
      · rw [if_pos he]
        subst he
        by_cases hk : e.1 = k
        · simp [hk]
        · simp [hk, beq_false_of_ne (Ne.symm hk)]
      · rw [if_neg he]
        by_cases hk : k' = k
        · subst hk
          simp [beq_false_of_ne (Ne.symm he)]
        · simp [hk]

/-- A request joins the weight of its pool, and leaves the others alone. -/
theorem merge_weight (h : merge entries r = .ok entries') :
    (∃ k, key r = .ok k) ∧ ∀ k, weightIn entries' k = weightIn entries k + demand r k := by
  obtain ⟨k', hkey, h⟩ := Checks.bind_ok.mp h
  refine ⟨⟨k', hkey⟩, fun k => ?_⟩
  rw [demand_of_key hkey]
  cases hlookup : entries.lookup k' with
  | some earlier =>
      rw [hlookup] at h
      cases h
      rw [weightIn, lookup_replaced, weightIn]
      by_cases hk : k' = k
      · subst hk
        simp [hlookup]
      · simp [hk]
  | none =>
      rw [hlookup] at h
      cases h
      rw [weightIn, List.lookup_append, weightIn, List.lookup_cons]
      by_cases hk : k' = k
      · subst hk
        simp [hlookup]
      · cases hentries : entries.lookup k <;> simp [hk, beq_false_of_ne (Ne.symm hk)]

theorem merged_weight (h : requests.foldlM merge entries = .ok entries') :
    (∀ r ∈ requests, ∃ k, key r = .ok k) ∧ ∀ k, weightIn entries' k = weightIn entries k + total requests k := by
  induction requests generalizing entries with
  | nil =>
      cases h
      exact ⟨by simp, fun k => (add_zero _).symm⟩
  | cons r requests ih =>
      rw [List.foldlM_cons] at h
      obtain ⟨next, hmerge, h⟩ := Checks.bind_ok.mp h
      obtain ⟨hkey, hnext⟩ := merge_weight hmerge
      obtain ⟨hkeys, hrest⟩ := ih h
      refine ⟨List.forall_mem_cons.mpr ⟨hkey, hkeys⟩, fun k => ?_⟩
      rw [hrest, hnext, total_cons, add_assoc]

/-- A bundle holds for each pool what its requests ask of it together. -/
theorem plan_weight (h : plan requests = .ok bundle) : (∀ r ∈ requests, ∃ k, key r = .ok k) ∧ weightAt bundle = total requests := by
  obtain ⟨entries, hentries, rfl⟩ := Checks.map_ok.mp h
  obtain ⟨hkeys, hweights⟩ := merged_weight hentries
  refine ⟨hkeys, ?_⟩
  funext k
  rw [weightAt_entries, hweights k]
  exact zero_add _

/-- The requests ask of every pool what the calls count for. -/
def Covers (requests : List QuotaRequest) (calls : Multiset (String × Arguments)) : Prop :=
  ∀ k, total requests k = charge calls k

namespace Covers

theorem nil : Covers [] 0 := fun _ => rfl

theorem append (h : Covers requests m) (h' : Covers rest n) : Covers (requests ++ rest) (m + n) := by
  intro k
  rw [total_append, charge_add, h k, h' k, Nat.cast_add]

/-- A call is covered by the request that it makes. -/
theorem call {c : String × Arguments} (hrequest : request c.1 c.2 = .ok (some r)) (hkey : key r = .ok k) : Covers [r] {c} := by
  intro k'
  have hplan : callPlan c.1 c.2 = .ok (some (k, [(k, r.weight)])) := by
    rw [callPlan, Checks.ok_bind hrequest]
    change (do let k ← key r; let todo ← plan [r]; Except.ok (some (k, todo))) = _
    rw [Checks.ok_bind hkey, Checks.ok_bind (plan_singleton hkey)]
  have hcall : callKey c = some k := callKey_eq hplan
  rw [total_cons, total_nil, add_zero, demand_of_key hkey, charge_singleton hcall, request_weight hrequest, Nat.cast_ite]
  rfl

/-- A call of an operation whose pools are those of the accounts. -/
theorem account {operation : String} {args : Arguments} {policy : OperationPolicy} {a : ℤ}
    (hpolicy : policyOf operation = .ok policy) (hscope : policy.scope = .account) (htimed : operation ∉ untimedOperations)
    (hcounts : policy.condition = .always ∨ (policy.condition = .refresh ∧ args.refreshCache = true))
    (haccount : args.accId = some a) (hkey : ∃ k, key ⟨operation, some a, 1⟩ = .ok k) :
    Covers [⟨operation, some a, 1⟩] {(operation, args)} := by
  obtain ⟨k, hkey⟩ := hkey
  have hpositive : ¬a ≤ 0 := by
    intro h
    rw [key, hpolicy] at hkey
    simp [bind, Except.bind, hscope, h] at hkey
  refine call ?_ hkey
  rw [request, if_neg htimed, hpolicy]
  rcases hcounts with hcondition | ⟨hcondition, hrefresh⟩
  · simp [bind, Except.bind, hscope, hcondition, haccount, hpositive]
  · simp [bind, Except.bind, hscope, hcondition, hrefresh, haccount, hpositive]

/-- Two calls of one pool are covered by one request of twice the weight. -/
theorem twice {operation : String} {account : Option ℤ} {c : String × Arguments} (h : Covers [⟨operation, account, 1⟩] {c}) :
    Covers [⟨operation, account, 2⟩] ({c} + {c}) := by
  intro k
  have hdouble : demand ⟨operation, account, 2⟩ k = 2 * demand ⟨operation, account, 1⟩ k := by
    have hkey : key ⟨operation, account, 2⟩ = key ⟨operation, account, 1⟩ := rfl
    rw [demand, demand, hkey]
    split_ifs <;> rfl
  have hk := h k
  rw [total_cons, total_nil, add_zero] at hk ⊢
  rw [charge_add, Nat.cast_add, hdouble, hk, two_mul]

theorem guarded {asks : Bool} {c : String × Arguments} (h : asks = true → Covers [r] {c}) :
    Covers (if asks then [r] else []) (if asks then {c} else 0) := by
  cases asks with
  | false => exact nil
  | true => exact h rfl

end Covers

end MoomooMcp.BrokerDispatch
