import MoomooMcp.Checks
import MoomooMcp.TradingPolicy

namespace MoomooMcp.TradingPolicy

open Checks OrderRules OrderContract

variable {operation : String} {o : ExactOrder} {i : InstrumentFacts} {d m : Decimal} {ds : List Decimal}

theorem require_bind {α : Type} {ok : Bool} {message : String} {f : Unit → Except Exc α} {a : α} :
    require ok message >>= f = .ok a ↔ ok = true ∧ f () = .ok a := by
  cases ok with
  | true => exact ⟨fun h => ⟨rfl, h⟩, fun h => h.2⟩
  | false => exact ⟨nofun, fun h => nomatch h.1⟩

theorem require_ok {ok : Bool} {message : String} : require ok message = .ok () ↔ ok = true := by
  cases ok with
  | true => exact iff_of_true rfl rfl
  | false => exact iff_of_false nofun nofun

theorem largest_mem (d : Decimal) (ds : List Decimal) : largest d ds ∈ d :: ds := by
  induction ds generalizing d with
  | nil => exact List.mem_singleton_self d
  | cons e ds ih =>
      have h := ih (if d.value < e.value then e else d)
      rw [largest, List.foldl_cons]
      by_cases hlt : d.value < e.value
      · simp only [if_pos hlt] at h ⊢
        exact List.mem_cons_of_mem _ h
      · simp only [if_neg hlt] at h ⊢
        rcases List.mem_cons.mp h with h | h
        · exact List.mem_cons.mpr (.inl h)
        · exact List.mem_cons_of_mem _ (List.mem_cons_of_mem _ h)

theorem le_largest {d e : Decimal} {ds : List Decimal} (h : e ∈ d :: ds) : e.value ≤ (largest d ds).value := by
  induction ds generalizing d e with
  | nil => rw [List.mem_singleton.mp h]; rfl
  | cons c ds ih =>
      rw [largest, List.foldl_cons]
      have hhead := ih (d := if d.value < c.value then c else d) List.mem_cons_self
      rcases List.mem_cons.mp h with rfl | h
      · refine le_trans ?_ hhead
        split <;> linarith
      · rcases List.mem_cons.mp h with rfl | h
        · refine le_trans ?_ hhead
          split <;> linarith
        · exact ih (List.mem_cons_of_mem _ h)

/-- The currency an instrument quotes in: its own where it names one. -/
inductive QuotesIn (i : InstrumentFacts) (currency : String) : Prop
  | named (h : i.currency = some currency) (hne : currency ≠ "")
  | verified (h : i.currency = none ∨ i.currency = some "") (hc : currencyForCode i.code = some currency)

theorem instrumentCurrency_ok {currency : String} :
    instrumentCurrency operation i = .ok currency ↔ QuotesIn i currency := by
  have hfilter : (i.currency.filter (· ≠ "") <|> currencyForCode i.code) = some currency ↔ QuotesIn i currency := by
    constructor
    · intro h
      cases hc : i.currency with
      | none => exact .verified (.inl hc) (by simpa [hc] using h)
      | some c =>
          by_cases hne : c = ""
          · exact .verified (.inr (hc.trans (congrArg some hne))) (by simpa [hc, hne] using h)
          · obtain rfl : c = currency := by simpa [hc, Option.filter, hne] using h
            exact .named hc hne
    · intro h
      cases h with
      | named h hne => simp [h, Option.filter, hne]
      | verified h hc => rcases h with h | h <;> simp [h, hc, Option.filter]
  rw [← hfilter, instrumentCurrency]
  cases i.currency.filter (· ≠ "") <|> currencyForCode i.code with
  | none => exact iff_of_false nofun nofun
  | some c => exact ⟨fun h => congrArg some (Except.ok.inj h), fun h => congrArg Except.ok (Option.some.inj h)⟩

/-- The multiplier of a classified instrument: one of an equity, the broker's of an option. -/
inductive Multiplies (i : InstrumentFacts) : Decimal → Prop
  | equity {c : String} (h : i.classification = some c) (hc : c ∈ equityClassifications) : Multiplies i ⟨10, -1⟩
  | option {m : Decimal} (h : i.classification = some optionClassification) (hm : i.monetaryMultiplier = some m) :
      Multiplies i m

theorem monetaryMultiplier_ok : monetaryMultiplier operation i = .ok m ↔ Multiplies i m := by
  constructor
  · intro h
    unfold monetaryMultiplier at h
    cases hc : i.classification with
    | none => rw [hc] at h; cases h
    | some c =>
        rw [hc] at h
        dsimp only at h
        split at h
        · next he => cases h; exact .equity hc he
        · split at h
          · next ho =>
              cases hm : i.monetaryMultiplier with
              | none => rw [hm] at h; cases h
              | some d => rw [hm] at h; cases h; exact .option (hc.trans (congrArg some ho)) hm
          · cases h
  · intro h
    cases h with
    | equity h hc => simp only [monetaryMultiplier, h, if_pos hc]
    | option h hm =>
        have hne : optionClassification ∉ equityClassifications := by decide
        simp only [monetaryMultiplier, h, if_neg hne, if_true, hm]

theorem requireMarketReference_ok : requireMarketReference operation i = .ok d ↔ marketReference i = some d := by
  unfold requireMarketReference
  cases marketReference i with
  | none => exact iff_of_false nofun nofun
  | some e => exact ⟨fun h => congrArg some (Except.ok.inj h), fun h => congrArg Except.ok (Option.some.inj h)⟩

def candidates (o : ExactOrder) : List Decimal :=
  ([o.facts.auxPrice, o.price].filterMap id).filter (fun d => 0 < d.value)

/-- The price an order on an instrument is valued at. -/
inductive Reference (o : ExactOrder) (i : InstrumentFacts) : Decimal → Prop
  | buy {price : Decimal} (ht : o.orderType ∈ fixedLimitTypes) (hp : o.price = some price) (hpos : 0 < price.value)
      (hs : o.side = "BUY") : Reference o i price
  | limit {price market : Decimal} (ht : o.orderType ∈ fixedLimitTypes) (hp : o.price = some price)
      (hpos : 0 < price.value) (hs : o.side ≠ "BUY") (hm : marketReference i = some market) :
      Reference o i (largest price [market])
  | market {market : Decimal} (hf : o.orderType ∉ fixedLimitTypes) (ht : o.orderType ∈ noFixedLimitTypes)
      (hm : marketReference i = some market) : Reference o i (largest market (candidates o))

theorem referencePrice_ok : referencePrice operation o i = .ok d ↔ Reference o i d := by
  constructor
  · intro h
    unfold referencePrice at h
    split at h
    · next ht =>
        cases hp : o.price with
        | none => rw [hp] at h; cases h
        | some price =>
            rw [hp] at h
            obtain ⟨hpos, h⟩ := require_bind.mp h
            have hpos := of_decide_eq_true hpos
            split at h
            · next hs => cases h; exact .buy ht hp hpos hs
            · next hs =>
                obtain ⟨market, hm, h⟩ := bind_ok.mp h
                cases h
                exact .limit ht hp hpos hs (requireMarketReference_ok.mp hm)
    · next hf =>
        split at h
        · next ht =>
            obtain ⟨market, hm, h⟩ := bind_ok.mp h
            cases h
            exact .market hf ht (requireMarketReference_ok.mp hm)
        · cases h
  · intro h
    cases h with
    | buy ht hp hpos hs =>
        rw [referencePrice, if_pos ht, hp]
        exact require_bind.mpr ⟨decide_eq_true hpos, by rw [if_pos hs]; rfl⟩
    | limit ht hp hpos hs hm =>
        rw [referencePrice, if_pos ht, hp]
        refine require_bind.mpr ⟨decide_eq_true hpos, ?_⟩
        rw [if_neg hs]
        exact bind_ok.mpr ⟨_, requireMarketReference_ok.mpr hm, rfl⟩
    | market hf ht hm =>
        rw [referencePrice, if_neg hf, if_pos ht]
        exact bind_ok.mpr ⟨_, requireMarketReference_ok.mpr hm, rfl⟩

theorem differing_false {α β : Type} [DecidableEq β] {key : α → β} {x : α} {xs : List α} :
    differing key (x :: xs) = false ↔ ∀ y ∈ xs, key y = key x := by
  simp only [differing, List.head?_cons, Option.any_some, List.any_cons, ne_eq, not_true_eq_false, decide_false,
    Bool.false_or, List.any_eq_false, decide_eq_true_eq, not_not]

/-- What a leg of a package is to be, in the terms that all of them share. -/
structure Packaged (leg : LegFacts) (v : LegValue) : Prop where
  option : leg.instrument.classification = some optionClassification
  currency : QuotesIn leg.instrument v.currency
  multiplier : Multiplies leg.instrument v.multiplier
  size : leg.instrument.contractSize = v.contractSize

theorem packageLeg_ok {leg : LegFacts} {v : LegValue} : packageLeg operation leg = .ok v ↔ Packaged leg v := by
  constructor
  · intro h
    obtain ⟨hc, h⟩ := require_bind.mp h
    obtain ⟨currency, hcurrency, h⟩ := bind_ok.mp h
    obtain ⟨multiplier, hm, h⟩ := bind_ok.mp h
    cases h
    exact ⟨of_decide_eq_true hc, instrumentCurrency_ok.mp hcurrency, monetaryMultiplier_ok.mp hm, rfl⟩
  · intro h
    refine require_bind.mpr ⟨decide_eq_true h.option, bind_ok.mpr ⟨v.currency, instrumentCurrency_ok.mpr h.currency, ?_⟩⟩
    refine bind_ok.mpr ⟨v.multiplier, monetaryMultiplier_ok.mpr h.multiplier, ?_⟩
    rw [h.size]
    rfl

/-- The values of the legs agree, up to how their numbers are written. -/
structure Common (v : LegValue) (vs : List LegValue) : Prop where
  currency : ∀ w ∈ vs, w.currency = v.currency
  multiplier : ∀ w ∈ vs, w.multiplier.value = v.multiplier.value
  size : ∀ w ∈ vs, w.contractSize.map Decimal.value = v.contractSize.map Decimal.value

theorem commonTerms_ok {v : LegValue} {vs : List LegValue} :
    commonTerms operation vs = .ok v ↔ ∃ rest, vs = v :: rest ∧ Common v rest := by
  cases vs with
  | nil => exact iff_of_false nofun (fun ⟨_, h, _⟩ => nomatch h)
  | cons w ws =>
      unfold commonTerms
      rw [require_bind, require_bind, Bool.not_eq_true', Bool.not_eq_true', differing_false, differing_false]
      constructor
      · rintro ⟨hc, hm, h⟩
        split at h
        · cases h
        · next hs => cases h; exact ⟨ws, rfl, hc, hm, differing_false.mp (Bool.not_eq_true _ ▸ hs)⟩
      · rintro ⟨rest, hv, hcommon⟩
        cases hv
        refine ⟨hcommon.currency, hcommon.multiplier, ?_⟩
        rw [if_neg (by rw [differing_false.mpr hcommon.size]; exact Bool.false_ne_true)]

/-- What a package of options is priced by: its net price and the terms of its first leg. -/
structure Package (o : ExactOrder) (price : Decimal) (terms : LegValue) : Prop where
  limit : o.orderType ∈ fixedLimitTypes
  priced : o.price = some price
  legs : ∃ rest, List.Forall₂ Packaged o.facts.legs (terms :: rest) ∧ Common terms rest

def packageValue (o : ExactOrder) (price : Decimal) (terms : LegValue) : Valued :=
  ⟨|price.value| * o.qty * terms.multiplier.value, terms.currency, "package premium"⟩

theorem assessComboPremium_ok {v : Valued} :
    assessComboPremium operation o = .ok v ↔ ∃ price terms, Package o price terms ∧ v = packageValue o price terms := by
  unfold assessComboPremium
  rw [require_bind, require_bind]
  constructor
  · rintro ⟨ht, -, h⟩
    cases hp : o.price with
    | none => rw [hp] at h; cases h
    | some price =>
        rw [hp] at h
        obtain ⟨vs, hvs, h⟩ := bind_ok.mp h
        obtain ⟨terms, hterms, h⟩ := bind_ok.mp h
        cases h
        obtain ⟨rest, rfl, hcommon⟩ := commonTerms_ok.mp hterms
        have hlegs := (mapM_ok.mp hvs).imp (fun _ _ => packageLeg_ok.mp)
        exact ⟨price, terms, ⟨of_decide_eq_true ht, hp, rest, hlegs, hcommon⟩, rfl⟩
  · rintro ⟨price, terms, hpackage, rfl⟩
    obtain ⟨rest, hlegs, hcommon⟩ := hpackage.legs
    have hne : (!o.facts.legs.isEmpty) = true := by
      cases hl : o.facts.legs with
      | nil => rw [hl] at hlegs; cases hlegs
      | cons leg legs => rfl
    refine ⟨decide_eq_true hpackage.limit, hne, ?_⟩
    rw [hpackage.priced]
    refine bind_ok.mpr ⟨terms :: rest, mapM_ok.mpr (hlegs.imp (fun _ _ => packageLeg_ok.mpr)), ?_⟩
    exact bind_ok.mpr ⟨terms, commonTerms_ok.mpr ⟨rest, rfl, hcommon⟩, rfl⟩

theorem checkAllowlist_ok {p : TradingPolicy} {legs : List LegFacts} :
    p.checkAllowlist operation legs = .ok () ↔ ∀ leg ∈ legs, leg.instrument.code ∈ p.symbolAllowlist := by
  induction legs with
  | nil => exact iff_of_true rfl (fun _ h => absurd h List.not_mem_nil)
  | cons leg legs ih =>
      rw [TradingPolicy.checkAllowlist, require_bind, ih, decide_eq_true_iff, List.forall_mem_cons]

theorem checkQuantity_ok {p : TradingPolicy} :
    p.checkQuantity operation o = .ok () ↔ ∀ limit, p.maxOrderQty = some limit → (o.largestLegQty : ℚ) ≤ limit.value := by
  unfold TradingPolicy.checkQuantity
  cases p.maxOrderQty with
  | none => exact iff_of_true rfl nofun
  | some limit =>
      rw [require_ok, decide_eq_true_iff]
      exact ⟨fun h limit' he => Option.some.inj he ▸ h, fun h => h limit rfl⟩

theorem checkNotional_ok {p : TradingPolicy} : p.checkNotional operation o = .ok () ↔
    ∃ v cap, TradingPolicy.valued operation o = .ok v ∧ p.maxOrderNotional.lookup v.currency = some cap ∧
      v.value ≤ cap.val.value := by
  unfold TradingPolicy.checkNotional
  rw [bind_ok]
  constructor
  · rintro ⟨v, hv, h⟩
    cases hcap : p.maxOrderNotional.lookup v.currency with
    | none => rw [hcap] at h; cases h
    | some cap =>
        rw [hcap] at h
        exact ⟨v, cap, hv, hcap, of_decide_eq_true (require_ok.mp h)⟩
  · rintro ⟨v, cap, hv, hcap, hle⟩
    refine ⟨v, hv, ?_⟩
    rw [hcap]
    exact require_ok.mpr (decide_eq_true hle)

/-- The price, the multiplier and the currency that an order is valued with. -/
inductive Weighed (o : ExactOrder) : Decimal → Decimal → String → Prop
  | single {leg : LegFacts} {legs : List LegFacts} {currency : String} {multiplier reference : Decimal}
      (hc : o.facts.isCombo = false) (hl : o.facts.legs = leg :: legs) (hq : QuotesIn leg.instrument currency)
      (hm : Multiplies leg.instrument multiplier) (hr : Reference o leg.instrument reference) :
      Weighed o reference multiplier currency
  | package {price : Decimal} {terms : LegValue} (hc : o.facts.isCombo = true) (hp : Package o price terms) :
      Weighed o ⟨|price.coefficient|, price.exponent⟩ terms.multiplier terms.currency

theorem value_abs (d : Decimal) : (⟨|d.coefficient|, d.exponent⟩ : Decimal).value = |d.value| := by
  rw [Decimal.abs_value, Decimal.value, Nat.cast_natAbs]

theorem valued_ok {v : Valued} (h : TradingPolicy.valued operation o = .ok v) :
    ∃ price multiplier, Weighed o price multiplier v.currency ∧ v.value = price.value * o.qty * multiplier.value := by
  unfold TradingPolicy.valued at h
  split at h
  · next hc =>
      obtain ⟨price, terms, hp, rfl⟩ := assessComboPremium_ok.mp h
      exact ⟨_, _, .package hc hp, by rw [value_abs]; rfl⟩
  · next hc =>
      unfold assessSingleLeg at h
      cases hl : o.facts.legs with
      | nil => rw [hl] at h; cases h
      | cons leg legs =>
          rw [hl] at h
          obtain ⟨currency, hq, h⟩ := bind_ok.mp h
          obtain ⟨multiplier, hm, h⟩ := bind_ok.mp h
          obtain ⟨reference, hr, h⟩ := bind_ok.mp h
          cases h
          exact ⟨reference, multiplier, .single (Bool.not_eq_true _ ▸ hc) hl (instrumentCurrency_ok.mp hq)
            (monetaryMultiplier_ok.mp hm) (referencePrice_ok.mp hr), rfl⟩

/-- The estimate starts from the terms that the assessment valued the order with. -/
theorem Weighed.estimateTerms {price multiplier : Decimal} {currency : String} (h : Weighed o price multiplier currency)
    (operation : String) : ∃ label, estimateTerms operation o = .ok ⟨price, multiplier, currency, label⟩ := by
  unfold TradingPolicy.estimateTerms
  cases h with
  | single hc hl hq hm hr =>
      rw [if_neg (by rw [hc]; exact Bool.false_ne_true), hl]
      refine ⟨"submission notional", bind_ok.mpr ⟨_, instrumentCurrency_ok.mpr hq, ?_⟩⟩
      exact bind_ok.mpr ⟨_, monetaryMultiplier_ok.mpr hm, bind_ok.mpr ⟨_, referencePrice_ok.mpr hr, rfl⟩⟩
  | @package net terms hc hp =>
      obtain ⟨rest, hlegs, -⟩ := hp.legs
      rw [if_pos hc]
      refine ⟨"package premium", bind_ok.mpr ⟨_, assessComboPremium_ok.mpr ⟨net, terms, hp, rfl⟩, ?_⟩⟩
      cases hl : o.facts.legs with
      | nil => rw [hl] at hlegs; cases hlegs
      | cons leg legs =>
          rw [hl] at hlegs
          cases hlegs with
          | cons hleg _ =>
              rw [hp.priced]
              exact bind_ok.mpr ⟨_, monetaryMultiplier_ok.mpr hleg.multiplier, rfl⟩

theorem floatSized_one : Decimal.FloatSized 1 := by
  rw [Decimal.FloatSized, abs_one]
  exact ⟨zpow_le_one_of_nonpos₀ (by norm_num) (by norm_num), one_le_zpow₀ (by norm_num) (by norm_num)⟩

theorem Multiplies.usable (h : Multiplies i m) (hi : Normalized i) : m.Usable := by
  cases h with
  | equity h hc =>
      have hone : (⟨10, -1⟩ : Decimal).value = 1 := by norm_num [Decimal.value]
      exact ⟨by rw [hone]; exact zero_lt_one, by rw [hone]; exact floatSized_one⟩
  | option h hm => exact hi.multiplier m hm

theorem marketReference_some (h : marketReference i = some m) : m ∈ quotes i ∧ ∀ d ∈ quotes i, d.value ≤ m.value := by
  unfold marketReference at h
  cases hq : quotes i with
  | nil => rw [hq] at h; cases h
  | cons d ds =>
      rw [hq] at h
      cases h
      exact ⟨largest_mem d ds, fun _ => le_largest⟩

theorem Reference.positive (h : Reference o i d) (hi : Normalized i) : 0 < d.value := by
  cases h with
  | buy ht hp hpos hs => exact hpos
  | limit ht hp hpos hs hm => exact hpos.trans_le (le_largest List.mem_cons_self)
  | market hf ht hm =>
      exact (hi.quoted _ (marketReference_some hm).1).positive.trans_le (le_largest List.mem_cons_self)

theorem Weighed.nonneg {price multiplier : Decimal} {currency : String} (h : Weighed o price multiplier currency) :
    0 ≤ price.value ∧ multiplier.Usable := by
  cases h with
  | single hc hl hq hm hr =>
      have hi := o.normalized _ (hl ▸ List.mem_cons_self)
      exact ⟨(hr.positive hi).le, hm.usable hi⟩
  | package hc hp =>
      rw [value_abs]
      refine ⟨abs_nonneg _, ?_⟩
      obtain ⟨rest, hlegs, -⟩ := hp.legs
      cases hl : o.facts.legs with
      | nil => rw [hl] at hlegs; cases hlegs
      | cons leg legs =>
          rw [hl] at hlegs
          cases hlegs with
          | cons hleg _ => exact hleg.multiplier.usable (o.normalized leg (hl ▸ List.mem_cons_self))

/-- The digits of the factors and the size of the product decide that nothing is
lost: neither product is rounded, and neither overflows. -/
theorem product_exact {price quantity multiplier : Decimal} (hm : multiplier.Usable)
    (h : |price.value * quantity.value * multiplier.value| ≤ 10 ^ (309 : ℤ)) :
    ∃ r, product price quantity multiplier = some r ∧ r.value = price.value * quantity.value * multiplier.value := by
  obtain ⟨prec, hprec⟩ : ∃ prec, prec = max 28 (price.length + quantity.length + multiplier.length) := ⟨_, rfl⟩
  have hroom : price.length + quantity.length + multiplier.length ≤ prec := hprec ▸ le_max_right _ _
  have hcost : |price.value * quantity.value| < 10 ^ (634 : ℤ) := by
    have hsmall : (10 : ℚ) ^ (-324 : ℤ) ≤ |multiplier.value| := hm.sized.1
    have hle : |price.value * quantity.value| * 10 ^ (-324 : ℤ) ≤ 10 ^ (309 : ℤ) :=
      calc |price.value * quantity.value| * 10 ^ (-324 : ℤ)
          ≤ |price.value * quantity.value| * |multiplier.value| := mul_le_mul_of_nonneg_left hsmall (abs_nonneg _)
        _ = |price.value * quantity.value * multiplier.value| := (abs_mul _ _).symm
        _ ≤ 10 ^ (309 : ℤ) := h
    have hdiv : |price.value * quantity.value| ≤ 10 ^ (309 : ℤ) / 10 ^ (-324 : ℤ) := (le_div_iff₀ (by positivity)).mpr hle
    rw [← zpow_sub₀ (by norm_num)] at hdiv
    exact hdiv.trans_lt (zpow_lt_zpow_right₀ (by norm_num) (by norm_num))
  have hfirst : Decimal.mul prec price quantity = some (Decimal.exactMul price quantity) :=
    Decimal.mul_exact (by omega) hcost (by decide)
  have hlength := Decimal.length_exactMul price quantity
  have hsecond : Decimal.mul prec (Decimal.exactMul price quantity) multiplier =
      some (Decimal.exactMul (Decimal.exactMul price quantity) multiplier) := by
    refine Decimal.mul_exact (k := 310) (by omega) ?_ (by decide)
    rw [Decimal.value_exactMul]
    exact h.trans_lt (zpow_lt_zpow_right₀ (by norm_num) (by norm_num))
  refine ⟨Decimal.exactMul (Decimal.exactMul price quantity) multiplier, ?_, ?_⟩
  · simp only [product, ← hprec, hfirst, Option.bind_eq_bind, Option.bind_some, hsecond]
  · rw [Decimal.value_exactMul, Decimal.value_exactMul]

/-- The text of an amount denotes it. -/
theorem fixed_reads (h : 0 ≤ d.value) : ∃ r, Text.plainDecimal d.fixed.toList = some r ∧ r.value = d.value := by
  have hflat : 0 ≤ d.flat.coefficient := by
    have hv : 0 ≤ d.flat.value := by rw [Decimal.flat_value]; exact h
    have hc : (0 : ℚ) ≤ d.flat.coefficient := nonneg_of_mul_nonneg_left hv (by positivity)
    exact_mod_cast hc
  have hsign : d.sign = [] := by
    have hc : (0 : ℚ) ≤ d.coefficient := nonneg_of_mul_nonneg_left h (by positivity)
    exact if_neg (not_lt.mpr (by exact_mod_cast hc))
  refine ⟨⟨d.flat.coefficient.natAbs, d.flat.exponent⟩, ?_, ?_⟩
  · rw [Decimal.fixed, String.toList_ofList, hsign, List.nil_append, Decimal.plainDecimal_positional d.flat_exponent]
  · rw [← Decimal.flat_value d, Int.natAbs_of_nonneg hflat]

/-- The multiplier as a number: one for an equity, the broker's for an option. -/
def Established (i : InstrumentFacts) (multiplier : ℚ) : Prop :=
  (∃ c ∈ equityClassifications, i.classification = some c ∧ multiplier = 1) ∨
    (i.classification = some optionClassification ∧ ∃ m, i.monetaryMultiplier = some m ∧ multiplier = m.value)

/-- What a reference price covers: the limit of a buy, and otherwise no less than
the market and the prices of the order. -/
inductive Covers (o : ExactOrder) (i : InstrumentFacts) (reference : ℚ) : Prop
  | buy (ht : o.orderType ∈ fixedLimitTypes) (hs : o.side = "BUY")
      (hp : ∃ price, o.price = some price ∧ reference = price.value)
  | limit (ht : o.orderType ∈ fixedLimitTypes) (hs : o.side ≠ "BUY")
      (hp : ∃ price, o.price = some price ∧ price.value ≤ reference) (hne : quotes i ≠ [])
      (hq : ∀ quote ∈ quotes i, quote.value ≤ reference)
  | market (ht : o.orderType ∈ noFixedLimitTypes) (hne : quotes i ≠ []) (hq : ∀ quote ∈ quotes i, quote.value ≤ reference)
      (ha : ∀ trigger, o.facts.auxPrice = some trigger → trigger.value ≤ reference)
      (hp : ∀ price, o.price = some price → price.value ≤ reference)

/-- The value of a single-leg order: quantity x multiplier x reference. -/
def SingleValue (o : ExactOrder) (currency : String) (value : ℚ) : Prop :=
  ∃ leg legs multiplier reference, o.facts.legs = leg :: legs ∧ QuotesIn leg.instrument currency ∧
    Established leg.instrument multiplier ∧ Covers o leg.instrument reference ∧ value = o.qty * multiplier * reference

/-- The value of a package: its net price for every package, at the multiplier
that its option legs share with one currency and contract size. -/
def PackageValue (o : ExactOrder) (currency : String) (value : ℚ) : Prop :=
  ∃ price multiplier size, o.orderType ∈ fixedLimitTypes ∧ o.price = some price ∧ o.facts.legs ≠ [] ∧
    (∀ leg ∈ o.facts.legs, leg.instrument.classification = some optionClassification ∧ QuotesIn leg.instrument currency ∧
      Established leg.instrument multiplier ∧ leg.instrument.contractSize.map Decimal.value = size) ∧
    value = |price.value| * o.qty * multiplier

/-- What an accepted order is known to meet. -/
structure Guarded (p : TradingPolicy) (o : ExactOrder) (currency : String) (value : ℚ) : Prop where
  allowed : p.symbolAllowlist ≠ [] → ∀ leg ∈ o.facts.legs, leg.instrument.code ∈ p.symbolAllowlist
  quantity : ∀ limit, p.maxOrderQty = some limit → (o.largestLegQty : ℚ) ≤ limit.value
  valued : if o.facts.isCombo then PackageValue o currency value else SingleValue o currency value
  capped : ∃ cap, p.maxOrderNotional.lookup currency = some cap ∧ value ≤ cap.val.value

theorem Multiplies.established (h : Multiplies i m) : Established i m.value := by
  cases h with
  | equity h hc => exact .inl ⟨_, hc, h, by norm_num [Decimal.value]⟩
  | option h hm => exact .inr ⟨h, m, hm, rfl⟩

theorem marketReference_quoted (h : marketReference i = some m) : quotes i ≠ [] :=
  List.ne_nil_of_mem (marketReference_some h).1

/-- A number that is not above zero is no candidate, and below any usable one. -/
theorem le_market {market : Decimal} (hpos : 0 < market.value) (h : d ∈ [o.facts.auxPrice, o.price].filterMap id) :
    d.value ≤ (largest market (candidates o)).value := by
  by_cases hd : 0 < d.value
  · exact le_largest (List.mem_cons_of_mem _ (List.mem_filter.mpr ⟨h, decide_eq_true hd⟩))
  · exact (not_lt.mp hd).trans (hpos.le.trans (le_largest List.mem_cons_self))

theorem Reference.covers (h : Reference o i d) (hi : Normalized i) : Covers o i d.value := by
  cases h with
  | buy ht hp hpos hs => exact .buy ht hs ⟨d, hp, rfl⟩
  | @limit price market ht hp hpos hs hm =>
      refine .limit ht hs ⟨price, hp, le_largest List.mem_cons_self⟩ (marketReference_quoted hm) (fun quote hq => ?_)
      exact ((marketReference_some hm).2 quote hq).trans (le_largest (List.mem_cons_of_mem _ List.mem_cons_self))
  | @market market hf ht hm =>
      have hpos := (hi.quoted _ (marketReference_some hm).1).positive
      refine .market ht (marketReference_quoted hm) (fun quote hq => ?_) (fun trigger ha => ?_) (fun price hp => ?_)
      · exact ((marketReference_some hm).2 quote hq).trans (le_largest List.mem_cons_self)
      · exact le_market hpos (by simp [ha])
      · exact le_market hpos (by simp [hp])

theorem Package.value {price : Decimal} {terms : LegValue} (h : Package o price terms) :
    PackageValue o terms.currency (|price.value| * o.qty * terms.multiplier.value) := by
  obtain ⟨rest, hlegs, hcommon⟩ := h.legs
  refine ⟨price, terms.multiplier.value, terms.contractSize.map Decimal.value, h.limit, h.priced, ?_, ?_, rfl⟩
  · intro hnil
    rw [hnil] at hlegs
    cases hlegs
  · intro leg hleg
    obtain ⟨v, hv, hpack⟩ := forall₂_mem hlegs leg hleg
    have hsame : v.currency = terms.currency ∧ v.multiplier.value = terms.multiplier.value ∧
        v.contractSize.map Decimal.value = terms.contractSize.map Decimal.value := by
      rcases List.mem_cons.mp hv with rfl | hv
      · exact ⟨rfl, rfl, rfl⟩
      · exact ⟨hcommon.currency v hv, hcommon.multiplier v hv, hcommon.size v hv⟩
    refine ⟨hpack.option, hsame.1 ▸ hpack.currency, hsame.2.1 ▸ hpack.multiplier.established, ?_⟩
    rw [hpack.size, hsame.2.2]

theorem Weighed.value {price multiplier : Decimal} {currency : String} (h : Weighed o price multiplier currency) :
    if o.facts.isCombo then PackageValue o currency (price.value * o.qty * multiplier.value)
      else SingleValue o currency (price.value * o.qty * multiplier.value) := by
  cases h with
  | @single leg legs _ _ _ hc hl hq hm hr =>
      rw [if_neg (by rw [hc]; exact Bool.false_ne_true)]
      have hi := o.normalized leg (hl ▸ List.mem_cons_self)
      exact ⟨leg, legs, _, _, hl, hq, hm.established, hr.covers hi, by ring⟩
  | package hc hp =>
      rw [if_pos hc, value_abs]
      exact hp.value

theorem assessOrder_ok {p : TradingPolicy} : p.assessOrder operation o = .ok () ↔
    (p.symbolAllowlist ≠ [] → ∀ leg ∈ o.facts.legs, leg.instrument.code ∈ p.symbolAllowlist) ∧
      (∀ limit, p.maxOrderQty = some limit → (o.largestLegQty : ℚ) ≤ limit.value) ∧
      (p.maxOrderNotional ≠ [] → p.checkNotional operation o = .ok ()) := by
  have hcap : p.notionalCapConfigured = true ↔ p.maxOrderNotional ≠ [] := by
    rw [TradingPolicy.notionalCapConfigured, Bool.not_eq_true', ← Bool.not_eq_true, List.isEmpty_iff]
  have hallow : p.checkAllowlist operation o.facts.legs = .ok () ↔
      ∀ leg ∈ o.facts.legs, leg.instrument.code ∈ p.symbolAllowlist := checkAllowlist_ok
  have hqty : p.checkQuantity operation o = .ok () ↔
      ∀ limit, p.maxOrderQty = some limit → (o.largestLegQty : ℚ) ≤ limit.value := checkQuantity_ok
  rw [← hallow, ← hqty, ← hcap]
  unfold TradingPolicy.assessOrder
  have hrest : (TradingPolicy.checkQuantity operation p o >>= fun _ =>
      if p.notionalCapConfigured then p.checkNotional operation o else pure ()) = .ok () ↔
      p.checkQuantity operation o = .ok () ∧ (p.notionalCapConfigured = true → p.checkNotional operation o = .ok ()) := by
    rw [bind_ok]
    constructor
    · rintro ⟨_, hq, h⟩
      exact ⟨hq, fun hc => by rwa [if_pos hc] at h⟩
    · rintro ⟨hq, h⟩
      refine ⟨(), hq, ?_⟩
      split
      · next hc => exact h hc
      · rfl
  by_cases hs : p.symbolAllowlist ≠ []
  · rw [← hrest, if_pos hs, bind_ok]
    exact ⟨fun ⟨_, ha, h⟩ => ⟨fun _ => ha, h⟩, fun ⟨ha, h⟩ => ⟨(), ha hs, h⟩⟩
  · rw [← hrest, if_neg hs]
    exact ⟨fun h => ⟨fun hne => absurd hne hs, h⟩, fun h => h.2⟩

/-- An order that the guardrails accept is within them, and the estimate that the
budgets are charged with is its value in the same currency. -/
theorem assessed_estimate (p : TradingPolicy) (o : ExactOrder) (operation estimating : String)
    (hcap : p.maxOrderNotional ≠ []) (h : p.assessOrder operation o = .ok ()) :
    ∃ currency value, Guarded p o currency value ∧ ∃ e amount, estimateOrder estimating o = .ok e ∧
      e.currency = currency ∧ Text.plainDecimal e.amount.toList = some amount ∧ amount.value = value := by
  obtain ⟨hallowed, hquantity, hnotional⟩ := assessOrder_ok.mp h
  obtain ⟨v, cap, hv, hlookup, hle⟩ := checkNotional_ok.mp (hnotional hcap)
  obtain ⟨price, multiplier, hweighed, hvalue⟩ := valued_ok hv
  obtain ⟨hprice, husable⟩ := hweighed.nonneg
  have hnonneg : 0 ≤ v.value := by
    rw [hvalue]
    exact mul_nonneg (mul_nonneg hprice (Nat.cast_nonneg _)) husable.positive.le
  have hqty : (⟨o.qty, 0⟩ : Decimal).value = o.qty := by simp [Decimal.value]
  have hsmall : |price.value * (⟨o.qty, 0⟩ : Decimal).value * multiplier.value| ≤ 10 ^ (309 : ℤ) := by
    rw [hqty, ← hvalue, abs_of_nonneg hnonneg]
    exact hle.trans ((le_abs_self _).trans cap.property.sized.2)
  obtain ⟨r, hr, hamount⟩ := product_exact husable hsmall
  rw [hqty, ← hvalue] at hamount
  obtain ⟨amount, hread, hsame⟩ := fixed_reads (d := r) (hamount ▸ hnonneg)
  obtain ⟨label, hterms⟩ := hweighed.estimateTerms estimating
  refine ⟨v.currency, v.value, ⟨hallowed, hquantity, hvalue ▸ hweighed.value, cap, hlookup, hle⟩, ?_⟩
  refine ⟨⟨r.fixed, v.currency, label⟩, amount, ?_, rfl, hread, hsame.trans hamount⟩
  refine bind_ok.mpr ⟨_, hterms, ?_⟩
  rw [hr]
  exact require_bind.mpr ⟨decide_eq_true (hamount ▸ hnonneg), rfl⟩

def quoted : InstrumentFacts :=
  { code := "US.AAPL", classification := some "STOCK", lastPrice := some ⟨15125, -2⟩, bidPrice := some ⟨1512, -1⟩ }

theorem quoted_normalized : Normalized quoted := ⟨nofun, nofun, by decide +kernel⟩

def sale : ExactOrder where
  facts := ⟨"NORMAL", "SELL", some 3, [⟨quoted, 1⟩], some (.finite ⟨1500, -1⟩), none, false⟩
  qty := 3
  price := some ⟨1500, -1⟩
  qty_eq := rfl
  price_eq := rfl
  normalized := fun _ h => List.mem_singleton.mp h ▸ quoted_normalized

def capped : TradingPolicy where
  maxOrderQty := some ⟨5, 0⟩
  maxOrderNotional := [("USD", ⟨⟨250000, -1⟩, by decide +kernel⟩)]
  symbolAllowlist := ["US.AAPL"]

theorem assessed_estimate_sale : ∃ currency value, Guarded capped sale currency value ∧
    ∃ e amount, estimateOrder "place_order" sale = .ok e ∧ e.currency = currency ∧
      Text.plainDecimal e.amount.toList = some amount ∧ amount.value = value :=
  assessed_estimate capped sale "place_order" "place_order" nofun (by decide +kernel)

end MoomooMcp.TradingPolicy
