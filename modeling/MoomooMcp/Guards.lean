import MoomooMcp.Checks
import MoomooMcp.Transactions
import MoomooMcp.Preparation

namespace MoomooMcp.Preparation

open Checks ExecutionStore

/-- The order shows the quantity and the price of a merged request. -/
structure Shows (order : BrokerOrder) (expected : Params) : Prop where
  qty : ∀ q, expected.qty = some q → order.qty = some q
  price : ∀ x, expected.price = some x → order.price = some x

/-- The modifications of an order that no reading is known to have shown yet. -/
def earlier (j : Journal) (account : Account) (id : Option OrderId) : List Row :=
  id.elim [] (j.unobservedModifications account)

/-- Where the fields of a merging modification come from: what its caller did not
give is taken from a reading of the order, which showed every earlier one. -/
structure Sourced (j : Journal) (row : Row) (c : Request) (p : Prepared) (order : BrokerOrder) : Prop where
  reading : p.reading = some order
  target : order.orderId = c.params.orderId
  qty : p.merged.qty = c.params.qty.or order.qty
  price : p.merged.price = c.params.price.or order.price
  whole : p.merged.qty ≠ none
  priced : j.environment = .simulate → p.merged.price ≠ none
  shown : ∀ r ∈ earlier j row.account c.params.orderId, ∃ m, r.mergedRequest = some m ∧ Shows order m
  observed : ∀ k, k ∈ p.observed ↔ ∃ r ∈ earlier j row.account c.params.orderId, r.operationId = k

variable {order : BrokerOrder} {r : Row} {pending : List Row} {ids : List OperationId}

namespace Paper

theorem visible_iff : visible order r = true ↔
    ∃ m, r.mergedRequest = some m ∧ order.qty ≠ none ∧ order.price ≠ none ∧ order.qty = m.qty ∧
      order.price = m.price := by
  unfold visible
  cases r.mergedRequest with
  | none => simp
  | some m => simp

theorem requireModificationVisibility_ok (h : requireModificationVisibility order pending = .ok ids) :
    ids = pending.map Row.operationId ∧ ∀ r ∈ pending, visible order r = true := by
  induction pending generalizing ids with
  | nil => cases h; exact ⟨rfl, by simp⟩
  | cons r rest ih =>
      unfold requireModificationVisibility at h
      split at h
      · next hr =>
          cases hrest : requireModificationVisibility order rest with
          | error e => rw [hrest] at h; cases h
          | ok ids' =>
              rw [hrest] at h
              cases h
              obtain ⟨rfl, hall⟩ := ih hrest
              refine ⟨rfl, ?_⟩
              intro r' hr'
              rcases List.mem_cons.mp hr' with rfl | hr'
              · exact hr
              · exact hall r' hr'
      · cases h

theorem requireModificationVisibility_accepts (h : ∀ r ∈ pending, visible order r = true) :
    requireModificationVisibility order pending = .ok (pending.map Row.operationId) := by
  induction pending with
  | nil => rfl
  | cons r rest ih =>
      unfold requireModificationVisibility
      rw [if_pos (h r List.mem_cons_self), ih (fun r' hr' => h r' (List.mem_cons_of_mem _ hr'))]
      rfl

end Paper

namespace Real

theorem hidden_none {m : Params} : hidden order m = none ↔ Shows order m := by
  unfold hidden
  constructor
  · intro h
    split_ifs at h with hq hp
    refine ⟨fun q hm => ?_, fun x hm => ?_⟩
    · by_contra hne
      exact hq ⟨by simp [hm], by rw [hm]; exact hne⟩
    · by_contra hne
      exact hp ⟨by simp [hm], by rw [hm]; exact hne⟩
  · intro h
    have hq : ¬(m.qty ≠ none ∧ order.qty ≠ m.qty) := by
      rintro ⟨hsome, hne⟩
      obtain ⟨q, hm⟩ := Option.ne_none_iff_exists'.mp hsome
      exact hne ((h.qty q hm).trans hm.symm)
    have hp : ¬(m.price ≠ none ∧ order.price ≠ m.price) := by
      rintro ⟨hsome, hne⟩
      obtain ⟨x, hm⟩ := Option.ne_none_iff_exists'.mp hsome
      exact hne ((h.price x hm).trans hm.symm)
    rw [if_neg hq, if_neg hp]

theorem requireVisible_ok : requireVisible order r = .ok () ↔ ∃ m, r.mergedRequest = some m ∧ Shows order m := by
  unfold requireVisible
  cases r.mergedRequest with
  | none => simp
  | some m =>
      cases hh : hidden order m with
      | none => simp [hh, hidden_none.mp hh]
      | some name =>
          have hnot : ¬Shows order m := fun hs => by rw [hidden_none.mpr hs] at hh; cases hh
          simp [hh, hnot]

theorem observePending_ok (h : observePending order pending = .ok ids) :
    ids = pending.map Row.operationId ∧ ∀ r ∈ pending, requireVisible order r = .ok () := by
  induction pending generalizing ids with
  | nil => cases h; exact ⟨rfl, by simp⟩
  | cons r rest ih =>
      obtain ⟨_, hr, h⟩ := bind_ok.mp h
      obtain ⟨_, hrest, h⟩ := bind_ok.mp h
      cases h
      obtain ⟨rfl, hall⟩ := ih hrest
      refine ⟨rfl, ?_⟩
      intro r' hr'
      rcases List.mem_cons.mp hr' with rfl | hr'
      · exact hr
      · exact hall r' hr'

theorem observePending_accepts (h : ∀ r ∈ pending, requireVisible order r = .ok ()) :
    observePending order pending = .ok (pending.map Row.operationId) := by
  induction pending with
  | nil => rfl
  | cons r rest ih =>
      unfold observePending
      rw [h r List.mem_cons_self, ih (fun r' hr' => h r' (List.mem_cons_of_mem _ hr'))]
      rfl

end Real

/-- The guard accepts only a reading that shows every pending modification. -/
theorem guard_ok {env : Environment} {row : Row} (h : guard env row order pending = .ok ids) :
    ids = pending.map Row.operationId ∧ ∀ r ∈ pending, ∃ m, r.mergedRequest = some m ∧ Shows order m := by
  cases env with
  | simulate =>
      obtain ⟨hids, hall⟩ := Paper.requireModificationVisibility_ok h
      refine ⟨hids, fun r hr => ?_⟩
      obtain ⟨m, hm, _, _, hq, hp⟩ := Paper.visible_iff.mp (hall r hr)
      exact ⟨m, hm, fun q hmq => hq.trans hmq, fun x hmp => hp.trans hmp⟩
  | real =>
      have hreal : Real.validateTarget row order pending = .ok ids := h
      obtain ⟨_, _, hreal⟩ := bind_ok.mp hreal
      obtain ⟨hids, hall⟩ := Real.observePending_ok hreal
      exact ⟨hids, fun r hr => Real.requireVisible_ok.mp (hall r hr)⟩

section Prepare

variable {c : Request} {row : Row} {a : Assessment} {p : Prepared}

theorem wholeQuantity_ok {message : String} {requested existing : Option ℚ} {q : ℚ}
    (h : wholeQuantity message requested existing = .ok q) : some q = requested.or existing := by
  unfold wholeQuantity at h
  split at h
  · cases h
  · next hq =>
      split at h
      · cases h; exact hq.symm
      · cases h

theorem positivePrice_ok {requested existing : Option ℚ} {x : ℚ}
    (h : Paper.positivePrice requested existing = .ok x) : some x = requested.or existing := by
  unfold Paper.positivePrice at h
  split at h
  · cases h
  · next hx =>
      split at h
      · cases h; exact hx.symm
      · cases h

/-- A merging modification is dispatched with what the caller gave, and the rest from the reading. -/
theorem modification_ok {env : Environment} {observed : List OperationId}
    (h : modification env c row a order observed = .ok p) :
    p.reading = some order ∧ p.observed = observed ∧ p.merged.qty = c.params.qty.or order.qty ∧
      p.merged.price = c.params.price.or order.price ∧ p.merged.qty ≠ none ∧
      (env = .simulate → p.merged.price ≠ none) := by
  cases env with
  | simulate =>
      have hpaper : Paper.modification c row a order observed = .ok p := h
      obtain ⟨_, _, hpaper⟩ := bind_ok.mp hpaper
      obtain ⟨_, _, hpaper⟩ := bind_ok.mp hpaper
      obtain ⟨q, hq, hpaper⟩ := bind_ok.mp hpaper
      obtain ⟨x, hx, hpaper⟩ := bind_ok.mp hpaper
      obtain ⟨_, _, hpaper⟩ := bind_ok.mp hpaper
      cases hpaper
      exact ⟨rfl, rfl, wholeQuantity_ok hq, positivePrice_ok hx, Option.some_ne_none q, fun _ => Option.some_ne_none x⟩
  | real =>
      have hreal : Real.modification c row a order observed = .ok p := h
      obtain ⟨q, hq, hreal⟩ := bind_ok.mp hreal
      obtain ⟨_, _, hreal⟩ := bind_ok.mp hreal
      cases hreal
      exact ⟨rfl, rfl, wholeQuantity_ok hq, rfl, Option.some_ne_none q, fun he => by cases he⟩

theorem fetchOrder_ok {operation : String} {id : Option OrderId} {orders : Except Exc (List BrokerOrder)}
    (h : fetchOrder operation id orders = .ok order) : order.orderId = id := by
  obtain ⟨records, _, h⟩ := bind_ok.mp h
  split at h
  · cases h
  · next hfilter =>
      cases h
      have hmem : order ∈ records.filter (fun o => o.orderId = id) := by
        rw [hfilter]
        exact List.mem_singleton_self _
      simpa using (List.mem_filter.mp hmem).2
  · cases h

theorem fetchTarget_ok {env : Environment} {orders : Except Exc (List BrokerOrder)}
    (h : fetchTarget env c orders = .ok order) : order.orderId = c.params.orderId := by
  cases env with
  | simulate =>
      obtain ⟨order', hfetch, h⟩ := bind_ok.mp h
      obtain ⟨_, _, h⟩ := bind_ok.mp h
      cases h
      exact fetchOrder_ok hfetch
  | real => exact fetchOrder_ok h

theorem paper_placement_observed (h : Paper.placement c row a = .ok p) : p.observed = [] := by
  obtain ⟨_, _, h⟩ := bind_ok.mp h
  obtain ⟨_, _, h⟩ := bind_ok.mp h
  obtain ⟨_, _, h⟩ := bind_ok.mp h
  obtain ⟨_, _, h⟩ := bind_ok.mp h
  obtain ⟨_, _, h⟩ := bind_ok.mp h
  cases h
  rfl

theorem paper_cancellation_observed (h : Paper.cancellation c row order = .ok p) : p.observed = [] := by
  obtain ⟨_, _, h⟩ := bind_ok.mp h
  cases h
  rfl

theorem real_placement_observed (h : Real.placement c row a = .ok p) : p.observed = [] := by
  obtain ⟨_, _, h⟩ := bind_ok.mp h
  cases h
  rfl

/-- A mutation that merges nothing observes nothing. -/
theorem prepareDirect_ok {env : Environment} {orders : Except Exc (List BrokerOrder)}
    (h : prepareDirect env c row a orders = .ok p) : p.observed = [] := by
  obtain ⟨_, _, h⟩ := bind_ok.mp h
  cases env with
  | simulate =>
      cases hk : c.kind with
      | place | placeCombo =>
          rw [hk] at h
          exact paper_placement_observed h
      | modify | cancel =>
          rw [hk] at h
          obtain ⟨order, _, h⟩ := bind_ok.mp h
          exact paper_cancellation_observed h
  | real =>
      cases hk : c.kind with
      | place | placeCombo =>
          rw [hk] at h
          exact real_placement_observed h
      | modify | cancel =>
          rw [hk] at h
          cases h
          rfl

/-- What a successful preparation went by. -/
theorem prepare_ok {st st' : Store} {j : Journal} {orders : Except Exc (List BrokerOrder)} {fault : Fault}
    (h : prepare st j c row a orders fault = (.ok p, st')) :
    if merges j.environment c then ∃ order, Sourced j row c p order else p.observed = [] := by
  unfold prepare at h
  split_ifs at h ⊢ with hm
  · split at h
    · cases h
    · cases h
    · next order _ hfetch =>
        have htarget := fetchTarget_ok hfetch
        split at h
        · cases h
        · next pending st'' hread =>
            obtain ⟨rfl, _⟩ := read_ok hread
            obtain ⟨hbind, _⟩ := Prod.mk.inj h
            cases hg : guard j.environment row order (order.orderId.elim [] (j.unobservedModifications row.account)) with
            | error e => rw [hg] at hbind; cases hbind
            | ok ids =>
                rw [hg] at hbind
                obtain ⟨hids, hall⟩ := guard_ok hg
                obtain ⟨hreading, hobserved, hqty, hprice, hwhole, hpriced⟩ := modification_ok hbind
                rw [htarget] at hids hall
                refine ⟨order, hreading, htarget, hqty, hprice, hwhole, hpriced, hall, fun k => ?_⟩
                rw [hobserved, hids, List.mem_map]
                rfl
  · exact prepareDirect_ok (Prod.mk.inj h).1

end Prepare

end MoomooMcp.Preparation
