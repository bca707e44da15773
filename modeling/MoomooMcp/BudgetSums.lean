import MoomooMcp.DecimalText
import MoomooMcp.Reservations

namespace MoomooMcp.TradingControls

open Decimal

/-- The amount of a charge: a finite number that is not negative. -/
structure Amount where
  number : Decimal
  representable : number.Representable
  nonneg : 0 ≤ number.coefficient

/-- What a list of amounts adds up to. -/
def totalOf (amounts : List Amount) : ℚ := (amounts.map (fun a => a.number.value)).sum

/-- The sum does not overflow, and a context can have the digits it may need. -/
def Summable (ds : List Decimal) : Prop := (ds.map value).sum < 10 ^ (1000000 : ℤ) ∧ sumPrecision ds ≤ maxPrec

theorem covered (ds : List Decimal) :
    integerDigits ds + fractionalDigits ds + digits ds.length < sumPrecision ds := by
  rw [sumPrecision]
  omega

/-- The sum of numbers that are not negative is exact, or the code raises. -/
theorem sumExact_eq {ds : List Decimal} (hds : ∀ d ∈ ds, 0 ≤ d.value) :
    (Summable ds → sumExact ds = .ok (exactSum ds)) ∧ (¬ Summable ds → ∃ e, sumExact ds = .error (.raised e)) := by
  obtain ⟨c, hc⟩ : ∃ c : Context, c = ⟨sumPrecision ds, -999999, 999999⟩ := ⟨_, rfl⟩
  have hprec : integerDigits ds + fractionalDigits ds + digits ds.length < c.prec := hc ▸ covered ds
  have hemin : c.emin ≤ 0 := by rw [hc]; norm_num
  have hemax : 0 ≤ c.emax := by rw [hc]; norm_num
  have hsome : (c.sum ds).isSome ↔ (ds.map value).sum < 10 ^ (1000000 : ℤ) := by
    rw [Context.sum_isSome hprec hemin hemax hds, hc]
    rfl
  have hdef : sumExact ds = if maxPrec < sumPrecision ds then
      .error (.raised (Intent.valueError "valid range for prec is [1, MAX_PREC]"))
      else (c.sum ds).elim (.error overflow) .ok := by rw [hc, sumExact]
  constructor
  · rintro ⟨hsmall, hfine⟩
    obtain ⟨r, hr⟩ := Option.isSome_iff_exists.mp (hsome.mpr hsmall)
    rw [hdef, if_neg (not_lt.mpr hfine), hr, Context.sum_some hprec hemin hemax hr]
    rfl
  · intro hnot
    rw [hdef]
    by_cases hfine : maxPrec < sumPrecision ds
    · exact ⟨_, if_pos hfine⟩
    · have hlarge : ¬ (ds.map value).sum < 10 ^ (1000000 : ℤ) := fun hsmall => hnot ⟨hsmall, not_lt.mp hfine⟩
      have hnone : c.sum ds = none := Option.not_isSome_iff_eq_none.mp (mt hsome.mp hlarge)
      rw [if_neg hfine, hnone]
      exact ⟨_, rfl⟩

namespace Amount

theorem value_nonneg (a : Amount) : 0 ≤ a.number.value := value_nonneg_iff.mpr a.nonneg

theorem values_nonneg (amounts : List Amount) : ∀ d ∈ amounts.map Amount.number, 0 ≤ d.value := by
  intro d hd
  obtain ⟨a, _, rfl⟩ := List.mem_map.mp hd
  exact a.value_nonneg

theorem total_eq (amounts : List Amount) : (exactSum (amounts.map Amount.number)).value = totalOf amounts := by
  rw [value_exactSum, totalOf, List.map_map]
  rfl

/-- The texts of the amounts read back as the amounts. -/
theorem reread (amounts : List Amount) :
    (amounts.map (fun a => a.number.str)).mapM ofText = some (amounts.map Amount.number) := by
  induction amounts with
  | nil => rfl
  | cons a amounts ih =>
      have hread : ofText a.number.str = some a.number := by rw [ofText_str, if_pos a.representable]
      simp [List.mapM_cons, hread, ih]

theorem total_nonneg (amounts : List Amount) : 0 ≤ totalOf amounts :=
  List.sum_nonneg (by simpa using fun a _ => a.value_nonneg)

end Amount

variable {db : Database} {day : ℤ} {environment : String} {account : Account} {currency : String} {caps : Caps}
  {cap : Decimal}

theorem withinBudget_eq (amount : Amount) (hcap : caps.lookup currency = some cap) (hpos : 0 < amount.number.value) :
    withinBudget db day environment account (some currency) amount.number caps = (do
      let used ← sumExact (spent db day environment account currency)
      let charged ← sumExact [used, amount.number]
      if cap.value < charged.value then
        refuse ("Daily submission budget exceeded: " ++ charged.str ++ " " ++ currency)
      else .ok ()) := by
  have hcaps : caps ≠ [] := by
    rintro rfl
    cases hcap
  rw [withinBudget, if_neg (by simp [hcaps, hpos])]
  simp only [Option.bind_some, hcap, Option.map_some]

/-- The check of a charge, with the sums that it takes. -/
theorem withinBudget_cases (amounts : List Amount) (amount : Amount)
    (hspent : spent db day environment account currency = amounts.map Amount.number)
    (hcap : caps.lookup currency = some cap) (hpos : 0 < amount.number.value) :
    (Summable (amounts.map Amount.number) → Summable [exactSum (amounts.map Amount.number), amount.number] →
      withinBudget db day environment account (some currency) amount.number caps =
        if cap.value < totalOf amounts + amount.number.value then
          refuse ("Daily submission budget exceeded: " ++
            (exactSum [exactSum (amounts.map Amount.number), amount.number]).str ++ " " ++ currency)
        else .ok ()) ∧
    (¬ (Summable (amounts.map Amount.number) ∧ Summable [exactSum (amounts.map Amount.number), amount.number]) →
      ∃ e, withinBudget db day environment account (some currency) amount.number caps = .error (.raised e)) := by
  have hused := sumExact_eq (Amount.values_nonneg amounts)
  have htotal := Amount.total_eq amounts
  have hboth : ∀ d ∈ [exactSum (amounts.map Amount.number), amount.number], 0 ≤ d.value := by
    simp only [List.mem_cons, List.not_mem_nil, or_false, forall_eq_or_imp, forall_eq]
    exact ⟨htotal ▸ Amount.total_nonneg amounts, amount.value_nonneg⟩
  have hcharged := sumExact_eq hboth
  have hvalue : (exactSum [exactSum (amounts.map Amount.number), amount.number]).value =
      totalOf amounts + amount.number.value := by
    simp [value_exactSum, ← htotal]
  rw [withinBudget_eq amount hcap hpos, hspent]
  constructor
  · intro hfirst hsecond
    rw [hused.1 hfirst]
    change (sumExact [exactSum (amounts.map Amount.number), amount.number] >>= _) = _
    rw [hcharged.1 hsecond, ← hvalue]
    rfl
  · intro hnot
    by_cases hfirst : Summable (amounts.map Amount.number)
    · obtain ⟨e, he⟩ := hcharged.2 (fun hsecond => hnot ⟨hfirst, hsecond⟩)
      rw [hused.1 hfirst]
      change ∃ e, (sumExact [exactSum (amounts.map Amount.number), amount.number] >>= _) = _
      rw [he]
      exact ⟨e, rfl⟩
    · obtain ⟨e, he⟩ := hused.2 hfirst
      rw [he]
      exact ⟨e, rfl⟩

/-- Amounts are stored without loss and added up without rounding, or the code raises. So a
charge is compared with its cap exactly. -/
theorem budget_sums_exact (amounts : List Amount) :
    (Summable (amounts.map Amount.number) →
      ∃ r, sumExact (amounts.map Amount.number) = .ok r ∧ r.value = totalOf amounts) ∧
    (¬ Summable (amounts.map Amount.number) → ∃ e, sumExact (amounts.map Amount.number) = .error (.raised e)) ∧
    (amounts.map (fun a => a.number.str)).mapM ofText = some (amounts.map Amount.number) ∧
    ∀ (db : Database) (day : ℤ) (environment : String) (account : Account) (currency : String) (caps : Caps)
      (cap : Decimal) (amount : Amount),
      spent db day environment account currency = amounts.map Amount.number → caps.lookup currency = some cap →
      0 < amount.number.value →
      (Summable (amounts.map Amount.number) → Summable [exactSum (amounts.map Amount.number), amount.number] →
        (withinBudget db day environment account (some currency) amount.number caps = .ok () ↔
          totalOf amounts + amount.number.value ≤ cap.value)) ∧
      (¬ (Summable (amounts.map Amount.number) ∧ Summable [exactSum (amounts.map Amount.number), amount.number]) →
        ∃ e, withinBudget db day environment account (some currency) amount.number caps = .error (.raised e)) := by
  obtain ⟨hsum, hraise⟩ := sumExact_eq (Amount.values_nonneg amounts)
  refine ⟨fun h => ⟨_, hsum h, Amount.total_eq amounts⟩, hraise, Amount.reread amounts, ?_⟩
  intro db day environment account currency caps cap amount hspent hcap hpos
  obtain ⟨hdecides, hraises⟩ := withinBudget_cases amounts amount hspent hcap hpos
  refine ⟨fun hfirst hsecond => ?_, hraises⟩
  rw [hdecides hfirst hsecond]
  split
  · next hover => exact iff_of_false nofun (not_le.mpr hover)
  · next hfits => exact iff_of_true rfl (not_lt.mp hfits)

/-- The smallest power of ten that the context of the sum cannot hold. -/
def tooLarge : Amount where
  number := ⟨1, 1000000⟩
  representable := by
    refine ⟨by norm_num [minEtiny], ?_, ?_⟩
    · norm_num [adjusted, digits, maxEmax]
    · norm_num [digits, maxPrec]
  nonneg := by norm_num

theorem sum_overflows : ¬ ∀ amounts : List Amount,
    ∃ r, sumExact (amounts.map Amount.number) = .ok r ∧ r.value = totalOf amounts := by
  intro hall
  obtain ⟨r, hr, -⟩ := hall [tooLarge]
  have hlarge : ¬ Summable ([tooLarge].map Amount.number) := by
    rintro ⟨hsmall, -⟩
    have hvalue : (([tooLarge].map Amount.number).map value).sum = 10 ^ (1000000 : ℤ) := by
      simp only [List.map_cons, List.map_nil, List.sum_cons, List.sum_nil, tooLarge, value, Int.cast_one, one_mul, add_zero]
    exact absurd hsmall (hvalue ▸ lt_irrefl _)
  obtain ⟨e, he⟩ := (sumExact_eq (Amount.values_nonneg [tooLarge])).2 hlarge
  rw [hr] at he
  cases he

end MoomooMcp.TradingControls
