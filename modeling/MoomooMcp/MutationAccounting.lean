import MoomooMcp.AccountedRows

namespace MoomooMcp.RecoveryEvidence

open Accounting (checkAll refuseIf)
open ExecutionStore (Resolution CheckOutcome)
open Checks

variable {env : Environment} {row : Journaled} {orders : List Fields} {final : Fields} {f : Fill} {query : PositionQuery}

/-- The quantity and the price of a modification. -/
def terms : List String := ["qty", "price"]

theorem terms_numbers : terms ⊆ numbers := by decide

/-- The state that a paper modification asks for: both terms, as merged. -/
def Paper.Reached (row : Journaled) (o : Fields) : Prop :=
  ∀ name ∈ terms, ∃ v, row.expected.lookup name = some v ∧ Shows o name v

/-- The state that a REAL modification asks for. -/
def Real.Reached (row : Journaled) (status : String) (o : Fields) : Prop :=
  Real.mutation row = "DISABLE" ∧ status = "DISABLED" ∨
    (Real.mutation row = "NORMAL" ∨ Real.mutation row = "ENABLE" ∧ status ≠ "DISABLED") ∧
      ∀ name ∈ terms, (Value.get row.expected name).isNull = false → Shows o name (Value.get row.expected name)

def Reached : Environment → Journaled → String → Fields → Prop
  | .simulate, row, _, o => Paper.Reached row o
  | .real, row, status, o => Real.Reached row status o

theorem Paper.asked_true (hfill : fill final = .ok f) (h : Paper.asked row f = .ok true) : Paper.Reached row final := by
  obtain ⟨_, hqty, hprice, _, _⟩ := fill_ok.mp hfill
  unfold Paper.asked at h
  obtain ⟨v, hv, h⟩ := bind_ok.mp h
  obtain ⟨q, hq, h⟩ := bind_ok.mp h
  split at h
  · cases h
  · next hsame =>
      obtain ⟨w, hw, h⟩ := bind_ok.mp h
      obtain ⟨p, hp, h⟩ := bind_ok.mp h
      have hp' : f.price.value = p.value := of_decide_eq_true (Except.ok.inj h)
      simp only [Paper.Reached, terms, List.forall_mem_cons, List.not_mem_nil, false_imp_iff, implies_true, and_true]
      exact ⟨⟨v, Value.item_ok.mp hv, _, _, hqty, hq, not_not.mp hsame⟩, w, Value.item_ok.mp hw, _, _, hprice, hp, hp'⟩

theorem Real.sameTerms_true {names : List String} (h : Real.sameTerms row final names = .ok true) :
    ∀ name ∈ names, (Value.get row.expected name).isNull = false → Shows final name (Value.get row.expected name) := by
  induction names with
  | nil => exact nofun
  | cons name rest ih =>
      unfold Real.sameTerms at h
      rw [List.forall_mem_cons]
      split at h
      · next hnull => exact ⟨fun hn => absurd hnull (by simp [hn]), ih h⟩
      · obtain ⟨d, hd, h⟩ := bind_ok.mp h
        obtain ⟨e, he, h⟩ := bind_ok.mp h
        split at h
        · cases h
        · next hsame => exact ⟨fun _ => ⟨e, d, he, hd, (not_not.mp hsame).symm⟩, ih h⟩

theorem Real.asked_true (h : Real.asked row final f = .ok true) : row.kind ≠ .cancel ∧ Real.Reached row f.status final := by
  unfold Real.asked at h
  by_cases hkind : row.kind = .cancel
  · rw [if_pos hkind] at h
    cases h
  · rw [if_neg hkind] at h
    refine ⟨hkind, ?_⟩
    by_cases hdisable : Real.mutation row = "DISABLE"
    · rw [if_pos hdisable] at h
      exact .inl ⟨hdisable, of_decide_eq_true (Except.ok.inj h)⟩
    · rw [if_neg hdisable] at h
      by_cases hexposing : Real.mutation row = "NORMAL" ∨ Real.mutation row = "ENABLE"
      · rw [if_pos hexposing] at h
        by_cases hdisabled : Real.mutation row = "ENABLE" ∧ f.status = "DISABLED"
        · rw [if_pos hdisabled] at h
          cases h
        · rw [if_neg hdisabled] at h
          exact .inr ⟨hexposing.imp id (fun he => ⟨he, fun hs => hdisabled ⟨he, hs⟩⟩), Real.sameTerms_true h⟩
      · rw [if_neg hexposing] at h
        cases h

/-- How a modification or a cancellation can be resolved: its target is at an end,
or the modification finds the target in the state that it asked for. -/
theorem mutation_resolution (hkind : row.kind = .modify ∨ row.kind = .cancel) (hfill : fill final = .ok f)
    {res : Resolution} (h : resolution env row final f orders = .ok (some res)) :
    res = .terminalAccounted ∧ f.status ∈ terminalBroker ∨
      res = .currentStateAccounted ∧ f.status ∉ terminalBroker ∧ row.kind = .modify ∧ Reached env row f.status final := by
  have hplace : row.kind ≠ .place := by rcases hkind with h | h <;> simp [h]
  have hplacement : ¬placement row.kind = true := by rcases hkind with h | h <;> simp [h, placement]
  cases env with
  | simulate =>
      show _ ∨ res = _ ∧ _ ∧ _ ∧ Paper.Reached row final
      have h : Paper.resolution row final f = .ok (some res) := h
      unfold Paper.resolution at h
      rw [if_neg hplace] at h
      by_cases hterminal : f.status ∈ terminalBroker
      · rw [if_pos hterminal] at h
        cases h
        exact .inl ⟨rfl, hterminal⟩
      · rw [if_neg hterminal] at h
        by_cases hmodify : row.kind = .modify
        · rw [if_pos hmodify] at h
          obtain ⟨same, hasked, hres⟩ := map_ok.mp h
          cases same with
          | false => cases hres
          | true =>
              cases hres
              exact .inr ⟨rfl, hterminal, hmodify, Paper.asked_true hfill hasked⟩
        · rw [if_neg hmodify] at h
          cases h
  | real =>
      show _ ∨ res = _ ∧ _ ∧ _ ∧ Real.Reached row f.status final
      have h : Real.resolution row final f orders = .ok (some res) := h
      unfold Real.resolution at h
      rw [if_neg hplacement] at h
      by_cases hterminal : f.status ∈ terminalBroker
      · rw [if_pos hterminal] at h
        cases h
        exact .inl ⟨rfl, hterminal⟩
      · rw [if_neg hterminal] at h
        obtain ⟨same, hasked, hres⟩ := map_ok.mp h
        cases same with
        | false => cases hres
        | true =>
            cases hres
            obtain ⟨hcancel, hreached⟩ := Real.asked_true hasked
            exact .inr ⟨rfl, hterminal, hkind.resolve_right hcancel, hreached⟩

/-- What is reported of a resolution is reported under that resolution. -/
theorem report_some {res : Option Resolution} {a : Accounted} (h : report env row final f query res = .ok (some a)) :
    res = some a.resolution ∧ Reported env row final f a := by
  cases res with
  | none => cases env <;> cases h
  | some resolution =>
      cases env with
      | simulate =>
          obtain ⟨held, _, h⟩ := bind_ok.mp h
          obtain ⟨a', ha, hres, _, _, hr⟩ := accounted_ok.mp h
          cases ha
          exact ⟨congrArg some hres.symm, hr⟩
      | real =>
          obtain ⟨codes, _, h⟩ := bind_ok.mp h
          obtain ⟨held, _, h⟩ := bind_ok.mp h
          obtain ⟨a', ha, hres, _, _, hr⟩ := accounted_ok.mp h
          cases ha
          exact ⟨congrArg some hres.symm, hr⟩

theorem Reached.all (h : Consistent env row orders final f) (hr : Reached env row f.status final) :
    ∀ o ∈ orders, Reached env row f.status o := by
  intro o ho
  cases env with
  | simulate =>
      intro name hname
      obtain ⟨v, hv, hs⟩ := hr name hname
      exact ⟨v, hv, h.shows (terms_numbers hname) hs o ho⟩
  | real =>
      have hr : Real.Reached row f.status final := hr
      exact hr.imp id (fun ⟨hm, hs⟩ => ⟨hm, fun name hname hn => h.shows (terms_numbers hname) (hs name hname hn) o ho⟩)

theorem active_of_scope (h : Consistent env row orders final f) (hterminal : f.status ∉ terminalBroker) :
    f.status ∈ activeBroker := by
  have hknown : f.status ∈ terminalBroker ++ activeBroker := by
    cases env with
    | simulate =>
        have hs := (both_ok.mp h.scope).1
        exact not_not.mp (fun hn => refuseIf_ok.mp hs (.inl hn))
    | real =>
        have hs := (both_ok.mp h.scope).1
        exact not_not.mp (fun hn => refuseIf_ok.mp hs (.inl hn))
  exact (List.mem_append.mp hknown).resolve_left hterminal

/-- A modification or a cancellation is resolved only by a target at an end, or, a
modification, by an active target that is in the state it asked for. Neither proves
that the mutation succeeded, and no cancellation or deletion is resolved by an active target. -/
theorem mutation_never_overclaims {a : Accounted} (hkind : row.kind = .modify ∨ row.kind = .cancel)
    (h : account env row orders query = .ok (some a)) :
    a.facts.mutationSuccessProven = false ∧ ∃ status, (∀ o ∈ orders, text o "order_status" = status) ∧
      (a.resolution = .terminalAccounted ∧ status ∈ terminalBroker ∨
        a.resolution = .currentStateAccounted ∧ status ∈ activeBroker ∧ row.kind = .modify ∧
          ∀ o ∈ orders, Reached env row status o) ∧
      (row.kind = .cancel ∨ env = .real ∧ Real.mutation row = "DELETE" → status ∈ terminalBroker) := by
  obtain ⟨final, f, hc, res, hres, hreport⟩ := account_ok.mp h
  obtain ⟨hresolved, hr⟩ := report_some hreport
  subst hresolved
  have hcases := mutation_resolution hkind hc.fill hres
  refine ⟨?_, f.status, hc.status, ?_, ?_⟩
  · rw [hr.proven]
    rcases hkind with hk | hk <;> simp [hk, placement]
  · exact hcases.imp id (fun ⟨hstate, hterminal, hmodify, hreached⟩ =>
      ⟨hstate, active_of_scope hc hterminal, hmodify, Reached.all hc hreached⟩)
  · intro hnever
    refine hcases.elim (fun hend => hend.2) (fun ⟨_, _, hmodify, hreached⟩ => ?_)
    rcases hnever with hcancel | ⟨henv, hdelete⟩
    · rw [hcancel] at hmodify
      cases hmodify
    · subst henv
      have hreached : Real.Reached row f.status final := hreached
      unfold Real.Reached at hreached
      rw [hdelete] at hreached
      simp at hreached

/-- An order of five shares at ten. -/
def targetRow (status : String) : Fields :=
  [("order_id", .text "11"), ("order_status", .text status), ("code", .text "US.AAPL"), ("trd_side", .text "BUY"),
    ("order_type", .text "NORMAL"), ("qty", .number (.finite ⟨5, 0⟩)), ("price", .number (.finite ⟨10, 0⟩)),
    ("dealt_qty", .number (.finite ⟨0, 0⟩)), ("dealt_avg_price", .number (.finite ⟨0, 0⟩))]

/-- A modification of that order, as it was asked for and as it was merged for dispatch. -/
def modification (request : Fields) (merged : Option Fields) : Journaled where
  kind := .modify
  account := "7"
  orderTag := none
  brokerOrderId := none
  request := ("order_id", .text "11") :: request
  mergedRequest := merged

def flat : PositionQuery := fun _ => .ok (.list [])

def disabling : Journaled := modification [("modify_order_op", .text " disable")] none

theorem disabled_accounted : ∃ a, account .real disabling [targetRow "DISABLED"] flat = .ok (some a) ∧
    a.facts.mutationSuccessProven = false := by
  obtain ⟨a, ha⟩ := exists_accounted
    (show (account .real disabling [targetRow "DISABLED"] flat).toOption.join.isSome = true by decide +kernel)
  exact ⟨a, ha, (mutation_never_overclaims (.inl rfl) ha).1⟩

/-- The target shows every term that the request names, as merged where it was merged. -/
def Matches (row : Journaled) (o : Fields) : Prop :=
  ∀ name ∈ terms, ∀ v, row.expected.lookup name = some v → Shows o name v

/-- The recovery of a paper modification with an active target: it is accounted for
when the target shows what was asked for, and stays pending otherwise. -/
structure Complete (row : Journaled) (orders : List Fields) (final : Fields) (query : PositionQuery) : Prop where
  accounted : Matches row final →
    ∃ a, account .simulate row orders query = .ok (some a) ∧ a.resolution = .currentStateAccounted
  pending : ¬Matches row final → account .simulate row orders query = .ok none
  recorded : recorded (account .simulate row orders query) = .found ∨
    recorded (account .simulate row orders query) = .targetPending

/-- The request names a quantity, and a price too where the target shows that quantity. -/
def Covered (row : Journaled) (f : Fill) : Prop :=
  ∃ v q, row.expected.lookup "qty" = some v ∧ number v = .ok q ∧
    (f.qty.value = q.value → ∃ w p, row.expected.lookup "price" = some w ∧ number w = .ok p)

theorem Paper.asked_covered : (∃ b, Paper.asked row f = .ok b) ↔ Covered row f := by
  unfold Paper.asked Covered
  constructor
  · rintro ⟨b, h⟩
    obtain ⟨v, hv, h⟩ := bind_ok.mp h
    obtain ⟨q, hq, h⟩ := bind_ok.mp h
    refine ⟨v, q, Value.item_ok.mp hv, hq, fun hsame => ?_⟩
    rw [if_neg (not_not.mpr hsame)] at h
    obtain ⟨w, hw, h⟩ := bind_ok.mp h
    obtain ⟨p, hp, _⟩ := bind_ok.mp h
    exact ⟨w, p, Value.item_ok.mp hw, hp⟩
  · rintro ⟨v, q, hv, hq, hprice⟩
    by_cases hsame : f.qty.value = q.value
    · obtain ⟨w, p, hw, hp⟩ := hprice hsame
      refine ⟨decide (f.price.value = p.value), bind_ok.mpr ⟨v, Value.item_ok.mpr hv, bind_ok.mpr ⟨q, hq, ?_⟩⟩⟩
      rw [if_neg (not_not.mpr hsame)]
      exact bind_ok.mpr ⟨w, Value.item_ok.mpr hw, bind_ok.mpr ⟨p, hp, rfl⟩⟩
    · refine ⟨false, bind_ok.mpr ⟨v, Value.item_ok.mpr hv, bind_ok.mpr ⟨q, hq, ?_⟩⟩⟩
      rw [if_pos hsame]

theorem Paper.asked_false (hfill : fill final = .ok f) (h : Paper.asked row f = .ok false) : ¬Matches row final := by
  obtain ⟨_, hqty, hprice, _, _⟩ := fill_ok.mp hfill
  intro hm
  unfold Paper.asked at h
  obtain ⟨v, hv, h⟩ := bind_ok.mp h
  obtain ⟨q, hq, h⟩ := bind_ok.mp h
  obtain ⟨d, e, hd, he, hde⟩ := hm "qty" (by decide) v (Value.item_ok.mp hv)
  cases hqty.symm.trans hd
  cases hq.symm.trans he
  rw [if_neg (not_not.mpr hde)] at h
  obtain ⟨w, hw, h⟩ := bind_ok.mp h
  obtain ⟨p, hp, h⟩ := bind_ok.mp h
  obtain ⟨d, e, hd, he, hde⟩ := hm "price" (by decide) w (Value.item_ok.mp hw)
  cases hprice.symm.trans hd
  cases hp.symm.trans he
  exact of_decide_eq_false (Except.ok.inj h) hde

theorem Paper.asked_matches (hfill : fill final = .ok f) (h : Paper.asked row f = .ok true) : Matches row final := by
  intro name hname v hv
  obtain ⟨w, hw, hs⟩ := Paper.asked_true hfill h name hname
  cases hv.symm.trans hw
  exact hs

theorem active_not_terminal : ∀ status ∈ activeBroker, status ∉ terminalBroker := by decide

/-- Accounting of a paper modification with an active target is the check of its terms. -/
theorem Consistent.modify_eq (hc : Consistent .simulate row orders final f) (hkind : row.kind = .modify)
    (hactive : f.status ∈ activeBroker) : account .simulate row orders query =
      (Paper.asked row f).map (fun same => if same then some .currentStateAccounted else none) >>=
        Paper.report row final f query := by
  rw [hc.account_eq]
  show Paper.resolution row final f >>= _ = _
  rw [Paper.resolution, if_neg (by simp [hkind]), if_neg (active_not_terminal _ hactive), if_pos hkind]
  rfl

/-- A partial patch is recovered exactly where the request names what the check reads. -/
theorem partial_patch_recovery (hc : Consistent .simulate row orders final f) (hkind : row.kind = .modify)
    (hactive : f.status ∈ activeBroker)
    (hposition : ∃ held, position .simulate row.account query (text final "code") = .ok held) :
    Complete row orders final query ↔ Covered row f ∧ (Matches row final → ∃ r, f.remaining = .ok r) := by
  have heq : account .simulate row orders query = _ := hc.modify_eq hkind hactive
  obtain ⟨held, hheld⟩ := hposition
  rw [← Paper.asked_covered]
  cases hasked : Paper.asked row f with
  | error e =>
      rw [hasked] at heq
      have herror : account .simulate row orders query = .error e := heq
      refine ⟨fun h => ?_, fun ⟨⟨b, hb⟩, _⟩ => nomatch hb⟩
      rcases h.recorded with hr | hr <;> rw [herror] at hr <;> cases hr
  | ok same =>
      rw [hasked] at heq
      cases same with
      | false =>
          have hnone : account .simulate row orders query = .ok none := heq
          have hno := Paper.asked_false hc.fill hasked
          exact ⟨fun _ => ⟨⟨false, rfl⟩, fun hm => absurd hm hno⟩,
            fun _ => ⟨fun hm => absurd hm hno, fun _ => hnone, .inr (by rw [hnone]; rfl)⟩⟩
      | true =>
          have hyes := Paper.asked_matches hc.fill hasked
          have hreport : account .simulate row orders query = accounted .simulate row final f
              (some (text final "code")) [(text final "code", held)] .currentStateAccounted := by
            rw [heq]
            exact ok_bind hheld _
          constructor
          · intro h
            obtain ⟨a, ha, _⟩ := h.accounted hyes
            rw [hreport] at ha
            obtain ⟨a', _, _, _, _, hr⟩ := accounted_ok.mp ha
            exact ⟨⟨true, rfl⟩, fun _ => ⟨_, hr.remaining⟩⟩
          · rintro ⟨_, hrem⟩
            obtain ⟨r, hr⟩ := hrem hyes
            have hok := hreport.trans (ok_bind hr _)
            exact ⟨fun _ => ⟨_, hok, rfl⟩, fun hno => absurd hyes hno, .inl (by rw [hok]; rfl)⟩

/-- A paper modification and its target agree, whatever of the terms it names. -/
theorem target_consistent (request : Fields) (merged : Option Fields) :
    Consistent .simulate (modification request merged) [targetRow "SUBMITTED"] (targetRow "SUBMITTED")
      ⟨"SUBMITTED", ⟨5, 0⟩, ⟨10, 0⟩, ⟨0, 0⟩, ⟨0, 0⟩⟩ where
  head := rfl
  identity := ⟨"11", List.cons_ne_nil _ _, by simp [targetRow, Value.get, asText]⟩
  rows o ho := by
    cases List.mem_singleton.mp ho
    have hself : Paper.agrees (modification [] none) (targetRow "SUBMITTED") (targetRow "SUBMITTED") = .ok () := by
      decide +kernel
    exact ⟨fun _ h => (by cases h), (Paper.agrees_ok.mp hself).2⟩
  recorded := nofun
  fill := rfl
  scope := by
    show Paper.inScope _ _ = _
    decide +kernel

def priceOnly : Fields := [("adjust_limit", .number (.finite ⟨0, 0⟩)), ("price", .text "10.00")]

/-- A patch of the price alone, recovered from before its merge. -/
theorem price_patch_error : ∃ f, Consistent .simulate (modification priceOnly none) [targetRow "SUBMITTED"]
      (targetRow "SUBMITTED") f ∧ f.status ∈ activeBroker ∧
    Matches (modification priceOnly none) (targetRow "SUBMITTED") ∧
    recorded (account .simulate (modification priceOnly none) [targetRow "SUBMITTED"] flat) = .error := by
  refine ⟨_, target_consistent priceOnly none, by decide, ?_, by decide +kernel⟩
  intro name hname v hv
  simp only [terms, List.mem_cons, List.not_mem_nil, or_false] at hname
  rcases hname with rfl | rfl
  · cases hv
  · cases hv
    exact ⟨⟨10, 0⟩, ⟨1000, -2⟩, by decide +kernel, by decide +kernel, by decide +kernel⟩

def mergedTerms : Fields := [("qty", .number (.finite ⟨5, 0⟩)), ("price", .text "10.00")]

theorem merged_patch_recovered :
    Complete (modification priceOnly (some mergedTerms)) [targetRow "SUBMITTED"] (targetRow "SUBMITTED") flat := by
  refine (partial_patch_recovery (target_consistent _ _) rfl (by decide) ⟨⟨0, 0⟩, rfl⟩).mpr ⟨?_, ?_⟩
  · exact ⟨_, ⟨5, 0⟩, rfl, by decide +kernel, fun _ => ⟨_, ⟨1000, -2⟩, rfl, by decide +kernel⟩⟩
  · exact fun _ => ⟨⟨5, 0⟩, by decide +kernel⟩

end MoomooMcp.RecoveryEvidence
