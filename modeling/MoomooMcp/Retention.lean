import MoomooMcp.Custody

namespace MoomooMcp.BrokerDispatch

open RateLimit

/-- The pool a call counts for. -/
def callKey (c : String × Arguments) : Option PoolKey :=
  match callPlan c.1 c.2 with
  | .ok (some (k, _)) => some k
  | _ => none

theorem callKey_eq {operation : String} {args : Arguments} {k : PoolKey} {bundle : List (PoolKey × ℤ)}
    (h : callPlan operation args = .ok (some (k, bundle))) : callKey (operation, args) = some k := by
  unfold callKey
  rw [h]

theorem plan_singleton {r : QuotaRequest} {k : PoolKey} (h : key r = .ok k) : plan [r] = .ok [(k, r.weight)] := by
  unfold plan
  rw [merged_singleton h]
  rfl

/-- A call that is counted counts once. -/
theorem request_weight {operation : String} {args : Arguments} {r : QuotaRequest}
    (h : request operation args = .ok (some r)) : r.weight = 1 := by
  unfold request at h
  split at h
  · cases h
  · cases hpolicy : policyOf operation with
    | error e => rw [hpolicy] at h; cases h
    | ok policy =>
        rw [hpolicy] at h
        change (if _ then _ else if _ then _ else if _ then (if _ then _ else _) else _) = _ at h
        split at h
        · cases h
        split at h
        · cases h
        split at h
        · split at h <;> cases h
          rfl
        · cases h
          rfl

theorem callPlan_bundle {operation : String} {args : Arguments} {k : PoolKey} {bundle : List (PoolKey × ℤ)}
    (h : callPlan operation args = .ok (some (k, bundle))) : bundle = [(k, 1)] := by
  unfold callPlan at h
  cases hrequest : request operation args with
  | error e => rw [hrequest] at h; cases h
  | ok r =>
      rw [hrequest] at h
      cases r with
      | none => cases h
      | some r =>
          change (do let k ← key r; let todo ← plan [r]; Except.ok (some (k, todo))) = _ at h
          cases hkey : key r with
          | error e => rw [hkey] at h; cases h
          | ok k' =>
              rw [hkey, plan_singleton hkey, request_weight hrequest] at h
              cases h
              rfl

theorem plan_nodup {requests : List QuotaRequest} {bundle : List (PoolKey × ℤ)} (h : plan requests = .ok bundle) :
    (bundle.map Prod.fst).Nodup := by
  unfold plan at h
  cases hmerged : merged requests with
  | error e => rw [hmerged] at h; cases h
  | ok entries =>
      rw [hmerged] at h
      cases h
      rw [List.map_map]
      exact merged_nodup hmerged

def unlockPool : PoolKey := ("unlock_trade", none)

/-- The pool of a mutation's write. -/
def Write.pool (w : Write) : PoolKey :=
  match w.operation with
  | .placeOrder | .placeComboOrder => ("order_placement", some w.account)
  | .modifyOrder => ("modify_order", some w.account)

theorem key_write (w : Write) (weight : ℤ) :
    key ⟨w.operation.text, some w.account, weight⟩ =
      if w.account ≤ 0 then .error "Account-scoped quota requires a resolved account ID" else .ok w.pool := by
  obtain ⟨operation, account, jit⟩ := w
  cases operation with
  | placeOrder =>
      have hpolicy : policyOf "place_order" = .ok ⟨15, .account, "order_placement", .always, 20 / 1000⟩ := rfl
      by_cases h : account ≤ 0 <;> simp [key, WriteOperation.text, hpolicy, h, OperationPolicy.pool, Write.pool, bind, Except.bind]
  | placeComboOrder =>
      have hpolicy : policyOf "place_combo_order" = .ok ⟨15, .account, "order_placement", .always, 20 / 1000⟩ := rfl
      by_cases h : account ≤ 0 <;> simp [key, WriteOperation.text, hpolicy, h, OperationPolicy.pool, Write.pool, bind, Except.bind]
  | modifyOrder =>
      have hpolicy : policyOf "modify_order" = .ok ⟨20, .account, "", .always, 40 / 1000⟩ := rfl
      by_cases h : account ≤ 0 <;> simp [key, WriteOperation.text, hpolicy, h, OperationPolicy.pool, Write.pool, bind, Except.bind]

theorem key_unlock (weight : ℤ) : key ⟨"unlock_trade", none, weight⟩ = .ok unlockPool := rfl

theorem request_write {w : Write} (h : 0 < w.account) :
    request w.operation.text ⟨false, false, some w.account⟩ = .ok (some ⟨w.operation.text, some w.account, 1⟩) := by
  obtain ⟨operation, account, jit⟩ := w
  have hpositive : ¬account ≤ 0 := not_le.mpr h
  cases operation with
  | placeOrder =>
      have hpolicy : policyOf "place_order" = .ok ⟨15, .account, "order_placement", .always, 20 / 1000⟩ := rfl
      simp [request, untimedOperations, WriteOperation.text, hpolicy, hpositive, bind, Except.bind]
  | placeComboOrder =>
      have hpolicy : policyOf "place_combo_order" = .ok ⟨15, .account, "order_placement", .always, 20 / 1000⟩ := rfl
      simp [request, untimedOperations, WriteOperation.text, hpolicy, hpositive, bind, Except.bind]
  | modifyOrder =>
      have hpolicy : policyOf "modify_order" = .ok ⟨20, .account, "", .always, 40 / 1000⟩ := rfl
      simp [request, untimedOperations, WriteOperation.text, hpolicy, hpositive, bind, Except.bind]

theorem callKey_write {w : Write} (h : 0 < w.account) :
    callKey (w.operation.text, ⟨false, false, some w.account⟩) = some w.pool := by
  have hkey : key ⟨w.operation.text, some w.account, 1⟩ = .ok w.pool := by
    rw [key_write, if_neg (not_le.mpr h)]
  have hplan : callPlan w.operation.text ⟨false, false, some w.account⟩ = .ok (some (w.pool, [(w.pool, 1)])) := by
    unfold callPlan
    rw [request_write h]
    change (do let k ← key _; let todo ← plan [_]; Except.ok (some (k, todo))) = _
    rw [hkey, plan_singleton hkey]
    rfl
  exact callKey_eq hplan

theorem callKey_unlock : callKey ("unlock_trade", ⟨false, false, none⟩) = some unlockPool := rfl

theorem Write.pool_ne (w : Write) : w.pool ≠ unlockPool := by
  obtain ⟨operation, account, jit⟩ := w
  cases operation <;> simp [Write.pool, unlockPool]

/-- What a mutation reserves is what its calls need, and two calls unlock and lock again. -/
theorem Write.plan_cases {w : Write} {bundle : List (PoolKey × ℤ)} (h : plan w.requests = .ok bundle) :
    (w.jit = true ∧ bundle = [(w.pool, 1), (unlockPool, 2)] ∧
      w.calls.map callKey = [some unlockPool, some w.pool, some unlockPool]) ∨
    (w.jit = false ∧ bundle = [(w.pool, 1)] ∧ w.calls.map callKey = [some w.pool]) := by
  have haccount : 0 < w.account := by
    by_contra hnot
    have hkey := key_write w 1
    rw [if_pos (not_lt.mp hnot)] at hkey
    unfold plan merged Write.requests at h
    rw [List.foldlM_cons] at h
    have hmerge : merge [] ⟨w.operation.text, some w.account, 1⟩ =
        .error "Account-scoped quota requires a resolved account ID" := by
      unfold merge
      rw [hkey]
      rfl
    rw [hmerge] at h
    cases h
  have hkey : key ⟨w.operation.text, some w.account, 1⟩ = .ok w.pool := by
    rw [key_write, if_neg (not_le.mpr haccount)]
  have hcall := callKey_write haccount
  cases hjit : w.jit with
  | true =>
      left
      refine ⟨rfl, ?_, ?_⟩
      · unfold plan Write.requests at h
        rw [hjit, if_pos rfl, merged_pair hkey (key_unlock 2) w.pool_ne.symm] at h
        cases h
        rfl
      · unfold Write.calls
        rw [hjit, if_pos rfl]
        simp [hcall, callKey_unlock]
  | false =>
      right
      refine ⟨rfl, ?_, ?_⟩
      · unfold Write.requests at h
        rw [hjit, if_neg (by decide), plan_singleton hkey] at h
        cases h
        rfl
      · unfold Write.calls
        rw [hjit, if_neg (by decide)]
        simp [hcall]

variable {β : Type} {p q : Pools β} {cancelled : Bool} {f : Frame} {m : Mutation} {k : PoolKey}

/-- The permits of a mutation cover the calls it has yet to make. They are kept until the
awaiter cancels, and beyond that once they are protected. -/
structure Sheltered (p : Pools β) (cancelled : Bool) (f : Frame) (m : Mutation) : Prop where
  planned : plan m.write.requests = .ok m.wanted
  unsent : m.stage = .reserved → m.sent = []
  covered : ∀ rest, m.stage = .guarded rest →
    (∀ e ∈ m.wanted, ((m.sent ++ rest.filterMap callKey).count e.1 : ℤ) ≤ e.2) ∧
      (∀ k ∈ rest.filterMap callKey, k ∈ m.keys) ∧ ∀ c ∈ rest, (callKey c).isSome
  retained : cancelled = false ∨ (∃ rest, m.stage = .guarded rest) →
    ∀ e ∈ m.wanted, ∃ slot, f.slots e.1 = some slot ∧ e.2 ≤ p.remaining (e.1, slot) + m.sent.count e.1

/-- The next call of a protected mutation is on a pool. -/
def Performing (f : Frame) (k : PoolKey) : Prop :=
  ∃ m c rest, f.mutation = some m ∧ m.stage = .guarded (c :: rest) ∧ callKey c = some k

/-- No mutation uses a pool. -/
def Foreign (k : PoolKey) (stack : List Frame) : Prop := ∀ f ∈ stack, ∀ m, f.mutation = some m → k ∉ m.keys

/-- A mutation has reserved a part of its plan. -/
def Reserving (p : Pools β) (cancelled : Bool) (w : Write) (plan todo : List (PoolKey × ℤ))
    (slots : PoolKey → Option ℕ) : Prop :=
  BrokerDispatch.plan w.requests = .ok plan ∧ ∃ done, plan = done ++ todo ∧
    (cancelled = false → ∀ e ∈ done, ∃ slot, slots e.1 = some slot ∧ e.2 ≤ p.remaining (e.1, slot))

/-- What a worker that enters a context has done for its purpose. -/
def Purposeful (p : Pools β) (cancelled : Bool) (stack : List Frame) : Task → Prop
  | .entering (.mutation w) plan todo slots _ => Reserving p cancelled w plan todo slots
  | .lacking (.mutation w) plan todo slots _ k weight => Reserving p cancelled w plan ((k, weight) :: todo) slots
  | .entering (.call k) _ _ _ _ | .lacking (.call k) _ _ _ _ _ _ | .starting (some (.call k)) => Foreign k stack
  | .entering (.perform k) _ todo slots _ =>
    ∃ f below, stack = f :: below ∧ Performing f k ∧ slots = f.slots ∧ (todo = [(k, 1)] ∨ todo = [])
  | .lacking (.perform _) _ _ _ _ _ _ => False
  | .starting (some (.perform k)) =>
    ∃ g f below, stack = g :: f :: below ∧ g.mutation = none ∧ g.slots = f.slots ∧ Performing f k
  | _ => True

/-- A permit that a protected mutation has yet to use has calls left. -/
theorem Sheltered.left (h : Sheltered p cancelled f m) {rest : List (String × Arguments)}
    (hstage : m.stage = .guarded rest) (hk : k ∈ rest.filterMap callKey) :
    ∃ slot, f.slots k = some slot ∧ 1 ≤ p.remaining (k, slot) := by
  obtain ⟨hcovers, hkeys, _⟩ := h.covered rest hstage
  obtain ⟨e, he, hek⟩ := List.mem_map.mp (List.mem_toFinset.mp (hkeys k hk))
  obtain ⟨slot, hslot, hleft⟩ := h.retained (.inr ⟨rest, hstage⟩) e he
  subst hek
  have hcount := hcovers e he
  rw [List.count_append] at hcount
  have hpositive := List.count_pos_iff.mpr hk
  push_cast at hcount
  exact ⟨slot, hslot, by omega⟩

theorem Sheltered.mono (h : Sheltered p cancelled f m) {cancelled' : Bool}
    (hcancelled : cancelled' = false → cancelled = false)
    (hkeeps : ∀ e ∈ m.wanted, ∀ slot, f.slots e.1 = some slot → q.remaining (e.1, slot) = p.remaining (e.1, slot)) :
    Sheltered q cancelled' f m := by
  refine { h with retained := fun hopen e he => ?_ }
  obtain ⟨slot, hslot, hleft⟩ := h.retained (hopen.imp hcancelled id) e he
  exact ⟨slot, hslot, by rw [hkeeps e he slot hslot]; exact hleft⟩

/-- A call of the mutation, or one on a pool it does not use, goes on record. -/
theorem Sheltered.record {slot : ℕ} (h : Sheltered p cancelled f m)
    (hk : k ∉ m.keys ∨ ∃ c rest, m.stage = .guarded (c :: rest) ∧ callKey c = some k)
    (hself : q.remaining (k, slot) = p.remaining (k, slot) - 1)
    (hother : ∀ y, y ≠ (k, slot) → q.remaining y = p.remaining y) :
    Sheltered q cancelled (f.record k) (m.record k) := by
  by_cases hkeys : k ∈ m.keys
  · obtain ⟨c, rest, hstage, hc⟩ := hk.resolve_left (not_not_intro hkeys)
    have hrecord : m.record k = { m with sent := m.sent ++ [k], stage := .guarded rest } := by
      unfold Mutation.record
      rw [if_pos hkeys, hstage]
      rfl
    rw [hrecord]
    obtain ⟨hcovers, hsub, hsome⟩ := h.covered _ hstage
    rw [List.filterMap_cons_some hc] at hcovers hsub
    refine ⟨h.planned, nofun, fun rest' hrest => ?_, fun _ e he => ?_⟩
    · cases hrest
      refine ⟨fun e he => ?_, fun k' hk' => hsub k' (List.mem_cons_of_mem k hk'),
        fun c' hc' => hsome c' (List.mem_cons_of_mem c hc')⟩
      rw [List.append_assoc, List.singleton_append]
      exact hcovers e he
    · obtain ⟨slot', hslot, hleft⟩ := h.retained (.inr ⟨_, hstage⟩) e he
      refine ⟨slot', hslot, ?_⟩
      change e.2 ≤ q.remaining (e.1, slot') + ((m.sent ++ [k]).count e.1 : ℕ)
      rw [List.count_append, List.count_singleton]
      by_cases hx : (e.1, slot') = (k, slot)
      · obtain ⟨hek, rfl⟩ := Prod.mk.inj hx
        rw [hek] at hleft ⊢
        rw [hself, if_pos (beq_self_eq_true k)]
        push_cast
        omega
      · rw [hother _ hx]
        push_cast
        split <;> omega
  · have hrecord : m.record k = m := if_neg hkeys
    rw [hrecord]
    refine { h with retained := fun hopen e he => ?_ }
    obtain ⟨slot', hslot, hleft⟩ := h.retained hopen e he
    have hx : (e.1, slot') ≠ (k, slot) := by
      intro hx
      exact hkeys ((Prod.mk.inj hx).1 ▸ List.mem_toFinset.mpr (List.mem_map_of_mem he))
    exact ⟨slot', hslot, by rw [hother _ hx]; exact hleft⟩

theorem Reserving.mono {w : Write} {plan todo : List (PoolKey × ℤ)} {slots : PoolKey → Option ℕ}
    (h : Reserving p cancelled w plan todo slots) {cancelled' : Bool} (hcancelled : cancelled' = false → cancelled = false)
    (hkeeps : cancelled' = false → ∀ k slot, slots k = some slot → q.remaining (k, slot) = p.remaining (k, slot)) :
    Reserving q cancelled' w plan todo slots := by
  obtain ⟨hplan, done, hdone, hheld⟩ := h
  refine ⟨hplan, done, hdone, fun hopen e he => ?_⟩
  obtain ⟨slot, hslot, hleft⟩ := hheld (hcancelled hopen) e he
  exact ⟨slot, hslot, by rw [hkeeps hopen e.1 slot hslot]; exact hleft⟩

theorem Purposeful.mono {stack : List Frame} {task : Task} (h : Purposeful p cancelled stack task) {cancelled' : Bool}
    (hcancelled : cancelled' = false → cancelled = false)
    (hkeeps : cancelled' = false → ∀ k slot, task.slots k = some slot → q.remaining (k, slot) = p.remaining (k, slot)) :
    Purposeful q cancelled' stack task := by
  cases task with
  | entering purpose plan todo slots owned | lacking purpose plan todo slots owned k weight =>
      cases purpose with
      | mutation w => exact Reserving.mono h hcancelled hkeeps
      | scope | call k | perform k => exact h
  | starting purpose =>
      cases purpose with
      | none => trivial
      | some purpose => cases purpose <;> exact h
  | service | releasing rest => trivial

/-- One more pool of the plan is reserved. -/
theorem Reserving.next {w : Write} {plan todo : List (PoolKey × ℤ)} {slots : PoolKey → Option ℕ} {weight : ℤ} {slot : ℕ}
    (h : Reserving p cancelled w plan ((k, weight) :: todo) slots) (hslot : slots k = some slot)
    (hleft : weight ≤ p.remaining (k, slot)) : Reserving p cancelled w plan todo slots := by
  obtain ⟨hplan, done, hdone, hheld⟩ := h
  refine ⟨hplan, done ++ [(k, weight)], by rw [hdone, List.append_assoc, List.singleton_append], fun hopen e he => ?_⟩
  rcases List.mem_append.mp he with hold | hnew
  · exact hheld hopen e hold
  · rw [List.mem_singleton.mp hnew]
    exact ⟨slot, hslot, hleft⟩

/-- A pool is reserved anew, and the plan names it once. -/
theorem Reserving.grant {w : Write} {plan todo : List (PoolKey × ℤ)} {slots : PoolKey → Option ℕ} {weight : ℤ} (slot : ℕ)
    (h : Reserving p cancelled w plan ((k, weight) :: todo) slots) :
    Reserving p cancelled w plan ((k, weight) :: todo) (Function.update slots k (some slot)) := by
  obtain ⟨hplan, done, hdone, hheld⟩ := h
  refine ⟨hplan, done, hdone, fun hopen e he => ?_⟩
  obtain ⟨slot', hslot, hleft⟩ := hheld hopen e he
  have hnodup := plan_nodup hplan
  rw [hdone, List.map_append, List.map_cons] at hnodup
  have hne : e.1 ≠ k := by
    intro hek
    refine List.disjoint_of_nodup_append hnodup (List.mem_map_of_mem he) ?_
    rw [hek]
    exact List.mem_cons_self
  exact ⟨slot', by rw [Function.update_of_ne hne]; exact hslot, hleft⟩

/-- The calls of a mutation are covered by what it reserves. -/
theorem Sheltered.planned_covers (h : Sheltered p cancelled f m) :
    (∀ e ∈ m.wanted, ((m.write.calls.filterMap callKey).count e.1 : ℤ) ≤ e.2) ∧
      (∀ k ∈ m.write.calls.filterMap callKey, k ∈ m.keys) ∧ ∀ c ∈ m.write.calls, (callKey c).isSome := by
  have hfilter : m.write.calls.filterMap callKey = (m.write.calls.map callKey).filterMap id := by
    rw [List.filterMap_map]
    rfl
  have hsome : (∀ k ∈ m.write.calls.map callKey, k.isSome) → ∀ c ∈ m.write.calls, (callKey c).isSome :=
    fun h c hc => h (callKey c) (List.mem_map_of_mem hc)
  unfold Mutation.keys
  rcases m.write.plan_cases h.planned with ⟨_, hwanted, hcalls⟩ | ⟨_, hwanted, hcalls⟩ <;>
    rw [hfilter, hwanted, hcalls] <;> rw [hcalls] at hsome
  · have hne := m.write.pool_ne
    exact ⟨by simp [List.count_cons, hne, hne.symm], by simp, hsome (by simp)⟩
  · exact ⟨by simp, by simp, hsome (by simp)⟩

theorem mem_guards {stack : List Frame} {rest : List (String × Arguments)} (hf : f ∈ stack) (hm : f.mutation = some m)
    (hstage : m.stage = .guarded rest) (hk : k ∈ m.keys) : k ∈ guards stack := by
  induction stack with
  | nil => cases hf
  | cons g stack ih =>
      rw [guards_cons, Finset.mem_union]
      rcases List.mem_cons.mp hf with rfl | hrest
      · left
        rw [Frame.guards_of_mutation hm]
        unfold Mutation.guards
        rw [hstage]
        exact hk
      · exact .inr (ih hrest)

theorem mem_of_scoped {lease : List (PoolKey × ℕ)} {stack : List Frame} (h : Scoped lease stack) (hf : f ∈ stack)
    {slot : ℕ} (hslot : f.slots k = some slot) : (k, slot) ∈ owned stack ++ lease := by
  induction stack with
  | nil => cases hf
  | cons g stack ih =>
      rcases List.mem_cons.mp hf with rfl | hrest
      · exact h.1 k slot hslot
      · have hmem := ih h.2 hrest
        change (k, slot) ∈ g.owned ++ owned stack ++ lease
        rw [List.append_assoc]
        exact List.mem_append_right _ hmem

namespace Sys

/-- What a leased dispatch retains for its mutation. -/
structure Retention (s : Sys β) : Prop where
  cancelled : ∀ rest, s.awaiter = .cancelling rest → s.lease.cancelled = true
  sheltered : ∀ f ∈ s.stack, ∀ m, f.mutation = some m → Sheltered s.pools s.lease.cancelled f m
  purposeful : Purposeful s.pools s.lease.cancelled s.stack s.worker.task

variable [InMemoryBucket β] {policies : PoolKey → RateLimitPolicy} {s t : Sys β} {pools : Pools β}

theorem retention_init (clock : ℚ) (requests : List QuotaRequest) : Retention (init policies clock requests : Sys β) where
  cancelled rest h := by
    unfold init at h
    dsimp only at h
    split at h <;> cases h
  sheltered := nofun
  purposeful := trivial

omit [InMemoryBucket β] in
theorem mem_mine {x : PoolKey × ℕ} (hx : x ∈ owned s.stack ++ s.lease.slots) : x ∈ s.mine := by
  simp only [mine, List.mem_append] at hx ⊢
  tauto

namespace Custody

variable (h : Custody policies s)
include h

/-- The reservations a mutation uses are among those of the contexts and the lease. -/
theorem frame_slots {f : Frame} (hf : f ∈ s.stack) {k : PoolKey} {slot : ℕ} (hslot : f.slots k = some slot) :
    (k, slot) ∈ owned s.stack ++ s.lease.slots := mem_of_scoped h.scopes hf hslot

theorem seen_mine {k : PoolKey} {slot : ℕ} (hslot : s.worker.task.slots k = some slot) : (k, slot) ∈ s.mine :=
  List.mem_append_left _ (h.seen k slot hslot)

/-- What a context releases when it is left is not used by one that is still entered. -/
theorem released_notMem {x : PoolKey × ℕ} (hx : x ∈ s.worker.task.owned) : x ∉ owned s.stack ++ s.lease.slots := by
  have happart := h.apart
  simp only [mine, List.append_assoc] at happart
  intro hmem
  refine List.disjoint_of_nodup_append happart hx ?_
  rw [← List.append_assoc]
  exact List.mem_append_left _ hmem

end Custody

omit [InMemoryBucket β] in
/-- The mutation of the top context moves on. -/
theorem Retention.restage (hr : Retention s) {f : Frame} {m' : Mutation} {below : List Frame} (hs : s.stack = f :: below)
    (hawaiter : t.awaiter = s.awaiter) (hpools : t.pools = s.pools) (hcancelled : t.lease.cancelled = s.lease.cancelled)
    (hstack : t.stack = { f with mutation := some m' } :: below)
    (hworker : t.worker = .running .service)
    (hnew : Sheltered s.pools s.lease.cancelled f m') : Retention t where
  cancelled rest hrest := by
    rw [hcancelled]
    exact hr.cancelled rest (hawaiter ▸ hrest)
  sheltered g hg m hm := by
    rw [hstack] at hg
    rw [hpools, hcancelled]
    rcases List.mem_cons.mp hg with rfl | hbelow
    · cases hm
      exact { hnew with }
    · exact hr.sheltered g (hs ▸ List.mem_cons_of_mem f hbelow) m hm
  purposeful := by
    rw [hworker]
    trivial

/-- Other operations on the pools take nothing from a mutation. -/
theorem Retention.keeps (hr : Retention s) (h : Custody policies s) (hkeeps : Pools.Keeps s.pools pools) :
    Retention { s with pools := pools } where
  cancelled := hr.cancelled
  sheltered f hf m hm := by
    refine (hr.sheltered f hf m hm).mono id (fun e _ slot hslot => ?_)
    exact (hkeeps _ (h.known _ (mem_mine (h.frame_slots hf hslot)))).2
  purposeful := by
    refine hr.purposeful.mono id (fun _ k slot hslot => ?_)
    exact (hkeeps _ (h.known _ (h.seen_mine hslot))).2

omit [InMemoryBucket β] in
/-- Nothing but the stack and the worker's task matters once no pool changes. -/
theorem Retention.retask (hr : Retention s) {task : Task} (hawaiter : t.awaiter = s.awaiter) (hpools : t.pools = s.pools)
    (hlease : t.lease = s.lease) (hstack : t.stack = s.stack) (htask : t.worker.task = task)
    (hpurpose : Purposeful s.pools s.lease.cancelled s.stack task) : Retention t where
  cancelled rest hrest := by
    rw [hlease]
    exact hr.cancelled rest (hawaiter ▸ hrest)
  sheltered := by
    rw [hstack, hpools, hlease]
    exact hr.sheltered
  purposeful := by
    rw [hstack, hpools, hlease, htask]
    exact hpurpose

variable [LawfulBucket β]

/-- A reservation that no mutation relies on is released. -/
theorem Retention.release {x : PoolKey × ℕ} {task : Task} (hr : Retention s) (h : Custody policies s)
    (hpools : t.pools = s.pools.release x) (hlease : t.lease = s.lease) (hstack : t.stack = s.stack)
    (hcancelled : ∀ rest, t.awaiter = .cancelling rest → s.lease.cancelled = true) (htask : t.worker.task = task)
    (hpurpose : Purposeful (s.pools.release x) s.lease.cancelled s.stack task)
    (hx : ∀ f ∈ s.stack, ∀ m, f.mutation = some m → (s.lease.cancelled = false ∨ ∃ rest, m.stage = .guarded rest) →
      ∀ e ∈ m.wanted, ∀ slot, f.slots e.1 = some slot → (e.1, slot) ≠ x) : Retention t where
  cancelled rest hrest := by
    rw [hlease]
    exact hcancelled rest hrest
  sheltered f hf m hm := by
    rw [hstack] at hf
    rw [hpools, hlease]
    obtain ⟨_, _, hother, _⟩ := Pools.release_spec (x := x) h.sound
    have hold := hr.sheltered f hf m hm
    refine { hold with retained := fun hopen e he => ?_ }
    obtain ⟨slot, hslot, hleft⟩ := hold.retained hopen e he
    exact ⟨slot, hslot, by rw [hother _ (hx f hf m hm hopen e he slot hslot)]; exact hleft⟩
  purposeful := by
    rw [hstack, hpools, hlease, htask]
    exact hpurpose

omit [LawfulBucket β] in
/-- A call is on a pool that a mutation does not use, or is the next call of a mutation. -/
theorem starting_cases (h : Custody policies s) {purpose : Option Purpose} {k : PoolKey}
    (hkey : purpose.bind Purpose.key = some k) (hpurpose : Purposeful s.pools s.lease.cancelled s.stack (.starting purpose)) :
    ∀ f ∈ s.stack, ∀ m, f.mutation = some m →
      k ∉ m.keys ∨ ∃ c rest, m.stage = .guarded (c :: rest) ∧ callKey c = some k := by
  intro f hf m hm
  obtain ⟨purpose, rfl, hpurposekey⟩ := Option.bind_eq_some_iff.mp hkey
  cases purpose with
  | scope => cases hpurposekey
  | mutation w => cases hpurposekey
  | call k' =>
      cases hpurposekey
      exact .inl (hpurpose f hf m hm)
  | perform k' =>
      cases hpurposekey
      obtain ⟨g, f', below, hs, hg, _, m', c, rest, hm', hstage, hc⟩ := hpurpose
      have hsole := h.sole
      rw [hs] at hf hsole
      rcases List.mem_cons.mp hf with rfl | hrest
      · rw [hg] at hm
        cases hm
      · rcases List.mem_cons.mp hrest with rfl | hbelow
        · rw [hm'] at hm
          cases hm
          exact .inr ⟨c, rest, hstage, hc⟩
        · have hnone := Sole.below hsole.of_cons hm' f hbelow
          rw [hnone] at hm
          cases hm

theorem move_retention (h : Custody policies s) (hr : Retention s) (hmove : Move s t) : Retention t := by
  cases hmove with
  | clock now hnow => exact hr.keeps h (.refl s.pools)
  | rival k r pools hrival =>
      obtain ⟨_, hkeeps, _⟩ := Pools.rival_spec h.sound hrival
      exact hr.keeps h hkeeps
  | acquired k weight todo slots ticket slot pools ha hreserve =>
      obtain ⟨_, hkeeps, _⟩ := Pools.reserve_some h.sound hreserve
      exact { hr.keeps h hkeeps with cancelled := nofun }
  | refused k weight todo slots ticket pools ha hreserve =>
      obtain ⟨_, hkeeps, _⟩ := Pools.reserve_none h.sound hreserve
      exact hr.keeps h hkeeps
  | failed todo slots ha => exact { hr with cancelled := nofun }
  | leased slots ha =>
      obtain ⟨hworker, _⟩ := h.early (by rw [ha]; rfl)
      have hnone : s.stack = [] := h.idle (by rw [hworker]; rfl)
      exact ⟨nofun, fun f hf => absurd hf (hnone ▸ List.not_mem_nil), trivial⟩
  | dropped x rest ha =>
      obtain ⟨hworker, _⟩ := h.early (by rw [ha]; rfl)
      have hnone : s.stack = [] := h.idle (by rw [hworker]; rfl)
      refine ⟨nofun, fun f hf => absurd hf (hnone ▸ List.not_mem_nil), ?_⟩
      change Purposeful _ _ s.stack s.worker.task
      rw [hworker]
      trivial
  | raised ha => exact { hr with cancelled := nofun }
  | cancelled ha hlock =>
      exact {
        cancelled := fun _ _ => rfl
        sheltered := fun f hf m hm => (hr.sheltered f hf m hm).mono nofun (fun _ _ _ _ => rfl)
        purposeful := hr.purposeful.mono nofun nofun }
  | spared x rest ha hx => exact { hr with cancelled := fun _ _ => hr.cancelled _ ha }
  | withdrawn x rest ha hx =>
      have hcancelled := hr.cancelled _ ha
      refine hr.release h rfl rfl rfl (fun _ _ => hcancelled) rfl (hr.purposeful.mono id ?_) ?_
      · rw [hcancelled]
        nofun
      · rintro f hf m hm (hopen | ⟨rest', hstage⟩) e he slot hslot rfl
        · rw [hcancelled] at hopen
          cases hopen
        · -- What is protected is not withdrawn.
          apply hx
          rw [h.shielded]
          exact mem_guards hf hm hstage (List.mem_toFinset.mpr (List.mem_map_of_mem he))
  | returned ha => exact { hr with cancelled := nofun }
  | rejected hw => exact hr.retask rfl rfl rfl rfl rfl trivial
  | begun hw hopen => exact hr.retask rfl rfl rfl rfl rfl trivial
  | borrowed purpose plan todo slots owned k weight slot hw hslot hleft =>
      have hpurpose := hr.purposeful
      rw [hw] at hpurpose
      refine hr.retask rfl rfl rfl rfl rfl ?_
      cases purpose with
      | scope => trivial
      | call k' => exact hpurpose
      | mutation w => exact Reserving.next hpurpose hslot hleft
      | perform k' =>
          obtain ⟨f, below, hs, hf, hslots, htodo | htodo⟩ := hpurpose
          · cases htodo
            exact ⟨f, below, hs, hf, hslots, .inr rfl⟩
          · cases htodo
  | lacked purpose plan todo slots owned k weight hw hless =>
      have hpurpose := hr.purposeful
      rw [hw] at hpurpose
      refine hr.retask rfl rfl rfl rfl rfl ?_
      cases purpose with
      | scope => trivial
      | call k' => exact hpurpose
      | mutation w => exact hpurpose
      | perform k' =>
          obtain ⟨f, below, hs, ⟨m, c, rest, hm, hstage, hc⟩, hslots, htodo | htodo⟩ := hpurpose
          · cases htodo
            have hf : f ∈ s.stack := hs ▸ List.mem_cons_self
            obtain ⟨slot, hslot, hleft⟩ := (hr.sheltered f hf m hm).left hstage
              (List.mem_filterMap.mpr ⟨c, List.mem_cons_self, hc⟩)
            have hmore := hless slot (hslots ▸ hslot)
            omega
          · cases htodo
  | entered purpose plan slots owned hw =>
      have hpurpose := hr.purposeful
      rw [hw] at hpurpose
      cases purpose with
      | scope =>
          refine ⟨hr.cancelled, fun f hf m hm => ?_, trivial⟩
          rcases List.mem_cons.mp hf with rfl | hrest
          · cases hm
          · exact hr.sheltered f hrest m hm
      | call k =>
          refine ⟨hr.cancelled, fun f hf m hm => ?_, fun f hf m hm => ?_⟩
          · rcases List.mem_cons.mp hf with rfl | hrest
            · cases hm
            · exact hr.sheltered f hrest m hm
          · rcases List.mem_cons.mp hf with rfl | hrest
            · cases hm
            · exact hpurpose f hrest m hm
      | mutation w =>
          obtain ⟨hplan, done, hdone, hheld⟩ := hpurpose
          rw [List.append_nil] at hdone
          subst hdone
          refine ⟨hr.cancelled, fun f hf m hm => ?_, trivial⟩
          rcases List.mem_cons.mp hf with rfl | hrest
          · cases hm
            refine ⟨hplan, fun _ => rfl, nofun, fun hopen e he => ?_⟩
            obtain ⟨slot, hslot, hleft⟩ := hheld (hopen.resolve_right nofun) e he
            exact ⟨slot, hslot, by rw [List.count_nil, Nat.cast_zero, add_zero]; exact hleft⟩
          · exact hr.sheltered f hrest m hm
      | perform k =>
          obtain ⟨f, below, hs, hf, hslots, _⟩ := hpurpose
          refine ⟨hr.cancelled, fun f hf m hm => ?_, ⟨⟨slots, owned, none⟩, f, below, ?_, rfl, hslots, hf⟩⟩
          · rcases List.mem_cons.mp hf with rfl | hrest
            · cases hm
            · exact hr.sheltered f hrest m hm
          · exact congrArg (List.cons _) hs
  | granted purpose plan todo slots owned k weight slot pools hw hreserve =>
      obtain ⟨_, hkeeps, _, _, hleft⟩ := Pools.reserve_some h.sound hreserve
      have hpurpose := (hr.keeps h hkeeps).purposeful
      change Purposeful pools s.lease.cancelled s.stack s.worker.task at hpurpose
      rw [hw] at hpurpose
      refine (hr.keeps h hkeeps).retask rfl rfl rfl rfl rfl ?_
      cases purpose with
      | scope => trivial
      | call k' => exact hpurpose
      | mutation w => exact (Reserving.grant slot hpurpose).next (Function.update_self _ _ _) hleft.ge
      | perform k' => exact hpurpose.elim
  | denied purpose plan todo slots owned k weight pools hw hreserve =>
      obtain ⟨_, hkeeps, _⟩ := Pools.reserve_none h.sound hreserve
      exact (hr.keeps h hkeeps).retask rfl rfl rfl rfl rfl trivial
  | barred purpose hw hlock hbarred => exact hr.retask rfl rfl rfl rfl rfl trivial
  | untimed purpose hw hlock hkey hpermits => exact hr.retask rfl rfl rfl rfl rfl trivial
  | called purpose k slot pools hw hlock hkey hpermits hslot hstart =>
      obtain ⟨_, _, hself, hother, _⟩ := Pools.start_true h.sound hstart
      have hpurpose := hr.purposeful
      rw [hw] at hpurpose
      refine ⟨hr.cancelled, fun f' hf' m' hm' => ?_, trivial⟩
      obtain ⟨f, hf, rfl⟩ := List.mem_map.mp hf'
      obtain ⟨m, hm, rfl⟩ := Option.map_eq_some_iff.mp hm'
      exact (hr.sheltered f hf m hm).record (starting_cases h hkey hpurpose f hf m hm) hself hother
  | misfired purpose k slot pools hw hkey hslot hstart =>
      obtain ⟨rfl, _⟩ := Pools.start_false h.sound hstart
      exact hr.retask rfl rfl rfl rfl rfl trivial
  | released x rest hw =>
      have hx : x ∉ owned s.stack ++ s.lease.slots := h.released_notMem (by rw [hw]; exact List.mem_cons_self)
      refine hr.release h rfl rfl rfl hr.cancelled rfl trivial ?_
      rintro f hf m hm _ e he slot hslot rfl
      exact hx (h.frame_slots hf hslot)
  | resumed hw => exact hr.retask rfl rfl rfl rfl rfl trivial
  | cleared x rest hw =>
      have hnone : s.stack = [] := h.idle (by rw [hw]; rfl)
      exact ⟨hr.cancelled, fun f hf => absurd hf (hnone ▸ List.not_mem_nil), trivial⟩
  | ended hw => exact hr.retask rfl rfl rfl rfl rfl trivial
  | reserve requests bundle hw hplan => exact hr.retask rfl rfl rfl rfl rfl trivial
  | uncounted hw => exact hr.retask rfl rfl rfl rfl rfl trivial
  | call operation args k bundle hw hplan hfree => exact hr.retask rfl rfl rfl rfl rfl hfree
  | mutate w bundle hw hplan hfree => exact hr.retask rfl rfl rfl rfl rfl ⟨hplan, [], rfl, fun _ => nofun⟩
  | shielded f m below hw hs hf hm hlock hopen =>
      have hold := hr.sheltered f (hs ▸ List.mem_cons_self) m hf
      refine hr.restage hs rfl rfl rfl rfl hw ⟨hold.planned, nofun, fun rest hrest => ?_, fun _ => ?_⟩
      · cases hrest
        rw [hold.unsent hm, List.nil_append]
        exact hold.planned_covers
      · exact hold.retained (.inl hopen)
  | perform f m below operation args rest k bundle hw hs hf hm hplan =>
      refine hr.retask rfl rfl rfl rfl rfl ⟨f, below, hs, ⟨m, _, rest, hf, hm, callKey_eq hplan⟩, ?_, ?_⟩
      · unfold slots
        rw [hs]
      · exact .inl (callPlan_bundle hplan)
  | skip f m below c rest hw hs hf hm =>
      have hold := hr.sheltered f (hs ▸ List.mem_cons_self) m hf
      refine hr.restage hs rfl rfl rfl rfl hw ⟨hold.planned, nofun, fun rest' hrest => ?_, fun _ => ?_⟩
      · cases hrest
        obtain ⟨hcovers, hkeys, hsome⟩ := hold.covered _ hm
        have hsub : (rest.filterMap callKey).Sublist ((c :: rest).filterMap callKey) :=
          (List.sublist_cons_self c rest).filterMap callKey
        refine ⟨fun e he => le_trans ?_ (hcovers e he), fun k hk => hkeys k (hsub.subset hk),
          fun c' hc' => hsome c' (List.mem_cons_of_mem c hc')⟩
        exact_mod_cast (hsub.append_left m.sent).count_le e.1
      · exact hold.retained (.inr ⟨_, hm⟩)
  | unshielded f m below rest hw hs hf hm hlock =>
      have hold := hr.sheltered f (hs ▸ List.mem_cons_self) m hf
      refine hr.restage hs rfl rfl rfl rfl hw ⟨hold.planned, nofun, nofun, fun hopen => ?_⟩
      exact hold.retained (.inr ⟨_, hm⟩)
  | leave f below hw hs hplain =>
      exact ⟨hr.cancelled, fun g hg m hm => hr.sheltered g (hs ▸ List.mem_cons_of_mem f hg) m hm, trivial⟩
  | finish hw hs hlock => exact ⟨hr.cancelled, fun f hf => absurd hf (hs ▸ List.not_mem_nil), trivial⟩

end Sys

end MoomooMcp.BrokerDispatch
