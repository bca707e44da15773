import MoomooMcp.Doubles
import MoomooMcp.TradeExecution
import MoomooMcp.TradePreparation

namespace MoomooMcp.ReviewedOrders

open Intent Checks OrderRules OrderContract PreDispatch TradingControls TradePreparation TradeExecution

abbrev Instruments := Option (List String → Answer (List InstrumentFacts))

/-- What two lookups answer for the same codes is the same. Either may fail where the other does not. -/
def SameAnswers (before after : Instruments) : Prop :=
  ∀ find ∈ before, ∀ find' ∈ after, ∀ codes facts facts', find codes = .ok facts → find' codes = .ok facts' → facts = facts'

variable {before after : Instruments} {operation operation' : String} {v code orderType side qty price aux : Value}
  {code' orderType' side' qty' price' aux' : Value} {session session' : String} {f f' : OrderFacts} {n m : ℕ}
  {p q : Parameters} {w : TradePreparation.World}

theorem lookupOf_ok {codes : List String} {facts : List InstrumentFacts}
    (h : instrumentFacts (lookupOf before) operation codes = .ok facts) : ∃ find, before = some find ∧ find codes = .ok facts := by
  cases before with
  | none => cases h
  | some find => exact ⟨find, rfl, lift_ok_iff.mp h⟩

/-- The facts of an order of one leg, by what they are made of. -/
structure SingleLeg (instruments : Instruments) (operation : String) (code orderType side qty price aux : Value)
    (f : OrderFacts) : Prop where
  found : ∃ find instrument name, instruments = some find ∧ find [name] = .ok [instrument] ∧ code = .text name ∧
    f.legs = [⟨instrument, 1⟩]
  typed : requestedType orderType ∈ fixedLimitTypes ++ noFixedLimitTypes
  orderType : f.orderType = orderType.str
  side : f.trdSide = side.str
  qty : ∃ n, wholeQuantity operation qty = .ok n ∧ f.qty = some n
  price : floatOrNone price = .ok f.price
  aux : f.auxPrice = decimalOf aux
  single : f.isCombo = false

theorem singleLegFacts_ok
    (h : singleLegFacts (lookupOf before) operation code orderType side qty price aux session = .ok f) :
    SingleLeg before operation code orderType side qty price aux f := by
  unfold singleLegFacts at h
  obtain ⟨facts, hfacts, h⟩ := bind_ok.mp h
  obtain ⟨find, hfind, hfacts⟩ := lookupOf_ok hfacts
  split at h
  · next instrument name _ _ =>
      obtain ⟨-, h⟩ := check_bind_ok.mp h
      obtain ⟨_, hvalid, h⟩ := bind_ok.mp h
      obtain ⟨_, -, h⟩ := bind_ok.mp h
      obtain ⟨n, hn, h⟩ := bind_ok.mp h
      obtain ⟨number, hnumber, h⟩ := bind_ok.mp h
      obtain ⟨htyped, -⟩ := check_bind_ok.mp hvalid
      cases h
      exact ⟨⟨find, instrument, name, hfind, hfacts, rfl, rfl⟩, of_decide_eq_true htyped, rfl, rfl, ⟨n, hn, rfl⟩, hnumber, rfl, rfl⟩
  · cases h

/-- Orders of the same values are the same order. -/
theorem SingleLeg.unique (h : SingleLeg before operation code orderType side qty price aux f)
    (h' : SingleLeg after operation' code' orderType' side' qty' price' aux' f') (hsame : SameAnswers before after)
    (hcode : code.str = code'.str) (htype : orderType.str = orderType'.str) (hside : side.str = side'.str)
    (hqty : ∀ n, wholeQuantity operation qty = .ok n → wholeQuantity operation' qty' = .ok n)
    (hprice : floatOrNone price = floatOrNone price') (haux : decimalOf aux = decimalOf aux') : f = f' := by
  obtain ⟨find, instrument, name, hfind, hfound, rfl, hlegs⟩ := h.found
  obtain ⟨find', instrument', name', hfind', hfound', rfl, hlegs'⟩ := h'.found
  obtain rfl : name = name' := hcode
  obtain ⟨n, hn, hq⟩ := h.qty
  obtain ⟨n', hn', hq'⟩ := h'.qty
  have hlegs : f.legs = f'.legs := by
    have := hsame find hfind find' hfind' _ _ _ hfound hfound'
    rw [hlegs, hlegs', List.singleton_inj.mp this]
  have hnumber : f.qty = f'.qty := by
    cases (hqty n hn).symm.trans hn'
    rw [hq, hq']
  have hprice : f.price = f'.price := Except.ok.inj (h.price.symm.trans (hprice.trans h'.price))
  have htype := h.orderType.trans (htype.trans h'.orderType.symm)
  have hside := h.side.trans (hside.trans h'.side.symm)
  have haux := h.aux.trans (haux.trans h'.aux.symm)
  have hcombo := h.single.trans h'.single.symm
  cases f
  cases f'
  simp only at hlegs hnumber hprice htype hside haux hcombo
  rw [htype, hside, hnumber, hlegs, hprice, haux, hcombo]

/-- A quantity is read the same by every operation. -/
theorem wholeQuantity_iff : wholeQuantity operation qty = .ok n ↔
    ∃ d, qty = .number (.finite d) ∧ 0 < d.value ∧ d.value.den = 1 ∧ n = d.value.num.toNat := by
  constructor
  · intro h
    cases qty with
    | number x =>
        cases x with
        | finite d =>
            obtain ⟨hwhole, h⟩ := check_bind_ok.mp h
            cases h
            obtain ⟨hpos, hden⟩ := of_decide_eq_true hwhole
            exact ⟨d, rfl, hpos, hden, rfl⟩
        | nonFinite => cases h
    | null | bool | text | list | object => cases h
  · rintro ⟨d, rfl, hpos, hden, rfl⟩
    exact check_bind_ok.mpr ⟨decide_eq_true ⟨hpos, hden⟩, rfl⟩

theorem wholeQuantity_any (h : wholeQuantity operation qty = .ok n) : wholeQuantity operation' qty = .ok n :=
  wholeQuantity_iff.mpr (wholeQuantity_iff.mp h)

theorem wholeQuantity_whole (h : wholeQuantity operation qty = .ok n) : wholeQuantity operation' (whole n) = .ok n := by
  obtain ⟨d, -, hpos, -, rfl⟩ := wholeQuantity_iff.mp h
  have hvalue : ∀ n : ℕ, (⟨n, 0⟩ : Decimal).value = n := fun n => by simp [Decimal.value]
  have hn : 0 < d.value.num.toNat := by
    have := Rat.num_pos.mpr hpos
    omega
  refine wholeQuantity_iff.mpr ⟨_, rfl, ?_, ?_, ?_⟩
  · rw [hvalue]
    exact_mod_cast hn
  · rw [hvalue, Rat.den_natCast]
  · rw [hvalue, Rat.num_natCast, Int.toNat_natCast]

/-- What a preparation has established of an order of one leg. -/
structure Reviewed (w : TradePreparation.World) (operation : String) (p : Parameters) (f : OrderFacts) : Prop where
  price : ∃ numeric, toFloat (Value.get p.others "price") = .ok numeric
  side : sides.contains (Value.get p.others "trd_side").str = true
  leg : ∃ n, wholeQuantity operation (Value.get p.others "qty") = .ok n ∧
    SingleLeg w.instruments operation (Value.get p.others "code") (Value.get p.others "order_type")
      (Value.get p.others "trd_side") (whole n) (Value.get p.others "price") (Value.get p.others "aux_price") f

theorem singleFacts_ok (h : singleFacts w operation p = .ok f) : Reviewed w operation p f := by
  unfold singleFacts at h
  obtain ⟨numeric, hnumeric, h⟩ := bind_ok.mp h
  obtain ⟨n, hn, h⟩ := bind_ok.mp h
  obtain ⟨_, -, h⟩ := bind_ok.mp h
  obtain ⟨facts, hfacts, h⟩ := bind_ok.mp h
  obtain ⟨hside, h⟩ := check_bind_ok.mp h
  obtain ⟨-, h⟩ := check_bind_ok.mp h
  obtain ⟨_, -, h⟩ := bind_ok.mp h
  cases h
  exact ⟨⟨numeric, hnumeric⟩, hside, n, hn, singleLegFacts_ok hfacts⟩

theorem singlePreview_ok {contract : Contract} (h : singlePreview w q = .ok contract) :
    ∃ f, Reviewed w "preview_order" q f ∧ contractView f = .ok contract := by
  unfold singlePreview at h
  obtain ⟨⟨environment, account⟩, -, h⟩ := bind_ok.mp h
  obtain ⟨session, -, h⟩ := bind_ok.mp h
  obtain ⟨facts, hfacts, h⟩ := bind_ok.mp h
  have hr := singleFacts_ok hfacts
  exact ⟨facts, ⟨hr.price, hr.side, hr.leg⟩, h⟩

theorem mem_dropWhile {l : List Char} {c : Char} {drop : Char → Bool} (h : c ∈ l) (hc : drop c = false) :
    c ∈ l.dropWhile drop := by
  induction l with
  | nil => exact h
  | cons d l ih =>
      by_cases hd : drop d = true
      · rw [List.dropWhile_cons_of_pos hd]
        rcases List.mem_cons.mp h with rfl | h
        · cases hc.symm.trans hd
        · exact ih h
      · rw [List.dropWhile_cons_of_neg hd]
        exact h

/-- A character that is no blank is left by the normalization, in its upper case. -/
theorem mem_normalize {s : String} {c : Char} (h : c ∈ s.toList) (hc : Text.isSpace c = false) :
    c.toUpper ∈ (Text.normalize s).toList := by
  rw [Text.normalize, String.toList_ofList]
  refine List.mem_map_of_mem ?_
  rw [Text.strip, List.mem_reverse]
  exact mem_dropWhile (List.mem_reverse.mpr (mem_dropWhile h hc)) hc

/-- The characters of a number that no name has. -/
def marks : List Char := ['0', '+', '-']

theorem zero_marked {d : Decimal} (h : d.coefficient = 0) : ∃ c ∈ marks, c ∈ d.text.toList := by
  have hdigits : d.digitChars = ['0'] := by
    rw [Decimal.digitChars, h]
    rfl
  have hsign : ¬d.coefficient < 0 := by omega
  simp only [Decimal.text, hsign, if_false, List.nil_append]
  split
  · refine ⟨'0', by decide, ?_⟩
    rw [String.toList_ofList, Decimal.positional]
    split
    · simp [hdigits]
    · have hmem : '0' ∈ d.padded := by simp [Decimal.padded, hdigits]
      rw [← List.take_append_drop (d.padded.length - (-d.exponent).toNat) d.padded, List.mem_append] at hmem
      rcases hmem with hm | hm <;> simp [hm]
  · rw [String.toList_ofList, Decimal.scientific]
    by_cases hneg : d.adjusted < 0
    · exact ⟨'-', by decide, by simp [hneg]⟩
    · exact ⟨'+', by decide, by simp [hneg]⟩

/-- A value that is false is no name of an order type or of a side. -/
theorem falsy_unnamed (h : falsy v = true) :
    requestedType v ∉ fixedLimitTypes ++ noFixedLimitTypes ∧ v.str ∉ sides := by
  unfold falsy at h
  split at h
  · decide +kernel
  · decide +kernel
  · decide +kernel
  · decide +kernel
  · decide +kernel
  · next d =>
      obtain ⟨c, hmark, hc⟩ := zero_marked (of_decide_eq_true h)
      have hnames : ∀ name ∈ fixedLimitTypes ++ noFixedLimitTypes ++ sides, ∀ c ∈ marks, c ∉ name.toList := by
        have hall : (fixedLimitTypes ++ noFixedLimitTypes ++ sides).all
            (fun name => marks.all (fun c => !name.toList.contains c)) = true := by decide +kernel
        intro name hname c hc
        have hnot := List.all_eq_true.mp (List.all_eq_true.mp hall name hname) c hc
        rw [Bool.not_eq_true', ← Bool.not_eq_true, List.contains_iff_mem] at hnot
        exact hnot
      obtain ⟨hblank, hupper⟩ : Text.isSpace c = false ∧ c.toUpper = c := by
        simp only [marks, List.mem_cons, List.not_mem_nil, or_false] at hmark
        rcases hmark with rfl | rfl | rfl <;> exact ⟨rfl, rfl⟩
      constructor
      · intro hm
        refine hnames _ (List.mem_append_left _ hm) c hmark ?_
        rw [← hupper]
        exact mem_normalize hc hblank
      · exact fun hm => hnames _ (List.mem_append_right _ hm) c hmark hc
  · cases h

section RealOrders

variable {x : Real.World} {found : Presented} {contract : Contract} {target : List (String × Value)}

theorem placeOrder_agrees (hprep : singlePreview w q = .ok contract) (hexec : Real.placeOrder x p = .ok found)
    (hothers : q.others = p.others) (hsame : SameAnswers w.instruments x.instruments) :
    found.facts.mapM contractView = .ok (some contract) := by
  obtain ⟨f, hf, hcontract⟩ := singlePreview_ok hprep
  obtain ⟨n, hn, hleg⟩ := hf.leg
  unfold Real.placeOrder at hexec
  obtain ⟨_, -, hexec⟩ := bind_ok.mp hexec
  obtain ⟨-, hexec⟩ := check_bind_ok.mp hexec
  obtain ⟨_, -, hexec⟩ := bind_ok.mp hexec
  obtain ⟨session, -, hexec⟩ := bind_ok.mp hexec
  obtain ⟨_, -, hexec⟩ := bind_ok.mp hexec
  obtain ⟨_, -, hexec⟩ := bind_ok.mp hexec
  obtain ⟨_, -, hexec⟩ := bind_ok.mp hexec
  obtain ⟨account, -, hexec⟩ := bind_ok.mp hexec
  obtain ⟨facts, hfacts, hexec⟩ := bind_ok.mp hexec
  obtain ⟨_, -, hexec⟩ := bind_ok.mp hexec
  cases hexec
  have hleg' := singleLegFacts_ok hfacts
  rw [hothers] at hleg hn
  have heq : f = facts := by
    refine hleg.unique hleg' hsame rfl rfl rfl (fun m hm => ?_) rfl rfl
    cases (wholeQuantity_whole hn).symm.trans hm
    exact wholeQuantity_any hn
  rw [← heq]
  exact map_ok.mpr ⟨contract, hcontract, rfl⟩

/-- The facts of the legs do not depend on the name of the operation. -/
theorem legFacts_any {facts : List InstrumentFacts} {legs : List ComboLeg} {l : List LegFacts}
    (h : legFacts operation facts legs = .ok l) : legFacts operation' facts legs = .ok l := by
  induction legs generalizing l with
  | nil => exact h
  | cons leg legs ih =>
      rw [legFacts] at h ⊢
      split at h
      · cases h
      · obtain ⟨rest, hrest, h⟩ := bind_ok.mp h
        exact bind_ok.mpr ⟨rest, ih hrest, h⟩

theorem comboFacts_unique {valued : Bool} {legs : List ComboLeg}
    (h : comboFacts (lookupOf before) valued operation legs price qty orderType = .ok f)
    (h' : comboFacts (lookupOf after) valued operation' legs price qty orderType = .ok f')
    (hsame : SameAnswers before after) : f = f' := by
  unfold comboFacts at h h'
  cases valued with
  | false =>
      cases h
      cases h'
      rfl
  | true =>
      rw [if_pos rfl] at h h'
      obtain ⟨facts, hfacts, h⟩ := bind_ok.mp h
      obtain ⟨facts', hfacts', h'⟩ := bind_ok.mp h'
      obtain ⟨l, hl, h⟩ := bind_ok.mp h
      obtain ⟨l', hl', h'⟩ := bind_ok.mp h'
      obtain ⟨find, hfind, hfacts⟩ := lookupOf_ok hfacts
      obtain ⟨find', hfind', hfacts'⟩ := lookupOf_ok hfacts'
      have heq := hsame find hfind find' hfind' _ _ _ hfacts hfacts'
      subst heq
      cases (legFacts_any hl).symm.trans hl'
      cases h
      cases h'
      rfl

theorem placeComboOrder_agrees (hprep : comboReview w q = .ok contract) (hexec : Real.placeComboOrder x p = .ok found)
    (hothers : q.others = p.others) (hvalued : w.valued = x.valued) (hsame : SameAnswers w.instruments x.instruments) :
    found.facts.mapM contractView = .ok (some contract) := by
  unfold comboReview at hprep
  by_cases henv : q.trdEnv = "REAL"
  · rw [if_neg (not_not.mpr henv)] at hprep
    obtain ⟨-, hprep⟩ := check_bind_ok.mp hprep
    obtain ⟨-, hprep⟩ := check_bind_ok.mp hprep
    obtain ⟨legs, hlegs, hprep⟩ := bind_ok.mp hprep
    obtain ⟨f, hf, hprep⟩ := bind_ok.mp hprep
    obtain ⟨_, -, hcontract⟩ := bind_ok.mp hprep
    unfold Real.placeComboOrder at hexec
    obtain ⟨_, -, hexec⟩ := bind_ok.mp hexec
    obtain ⟨_, -, hexec⟩ := bind_ok.mp hexec
    obtain ⟨_, -, hexec⟩ := bind_ok.mp hexec
    obtain ⟨-, hexec⟩ := check_bind_ok.mp hexec
    obtain ⟨-, hexec⟩ := check_bind_ok.mp hexec
    obtain ⟨_, -, hexec⟩ := bind_ok.mp hexec
    obtain ⟨legs', hlegs', hexec⟩ := bind_ok.mp hexec
    obtain ⟨_, -, hexec⟩ := bind_ok.mp hexec
    obtain ⟨account, -, hexec⟩ := bind_ok.mp hexec
    obtain ⟨facts, hfacts, hexec⟩ := bind_ok.mp hexec
    obtain ⟨_, -, hexec⟩ := bind_ok.mp hexec
    cases hexec
    rw [hothers] at hlegs hf
    cases hlegs.symm.trans hlegs'
    rw [hvalued] at hf
    rw [← comboFacts_unique hf hfacts hsame]
    exact map_ok.mpr ⟨contract, hcontract, rfl⟩
  · rw [if_pos henv] at hprep
    cases hprep

/-- The order that a modification results in, by the request and the order there is. -/
structure Merged (p : Parameters) (target : List (String × Value)) (e : Parameters) : Prop where
  code : Value.get e.others "code" = Value.get target "code"
  side : Value.get e.others "trd_side" = Value.get target "trd_side"
  orderType : Value.get e.others "order_type" = Value.get target "order_type"
  qty : Value.get e.others "qty" = (Value.get p.others "qty").orElse (Value.get target "qty")
  price : Value.get e.others "price" = (Value.get p.others "price").orElse (Value.get target "price")
  aux : ∃ a, optionalFloat (Value.get target "aux_price") = .ok a ∧ Value.get e.others "aux_price" = optionalNumber a

theorem patched_ok {name : String} (h : patched p target name = .ok v) :
    v = (Value.get p.others name).orElse (Value.get target name) := by
  unfold patched at h
  unfold Value.orElse
  split at h
  · next hnull =>
      rw [if_pos hnull]
      exact (Value.get_of_lookup (Value.item_ok.mp h)).symm
  · next hgiven =>
      rw [if_neg hgiven]
      exact (Except.ok.inj h).symm

theorem effective_ok {e : Parameters} (h : effective p target = .ok e) : Merged p target e := by
  unfold effective at h
  obtain ⟨code, hcode, h⟩ := bind_ok.mp h
  obtain ⟨side, hside, h⟩ := bind_ok.mp h
  obtain ⟨orderType, htype, h⟩ := bind_ok.mp h
  obtain ⟨qty, hqty, h⟩ := bind_ok.mp h
  obtain ⟨price, hprice, h⟩ := bind_ok.mp h
  obtain ⟨aux, haux, h⟩ := bind_ok.mp h
  cases h
  have hget : ∀ {name : String} {v : Value}, Value.item target name = .ok v → v = Value.get target name :=
    fun hv => (Value.get_of_lookup (Value.item_ok.mp hv)).symm
  exact ⟨hget hcode, hget hside, hget htype, patched_ok hqty, patched_ok hprice, aux, haux, rfl⟩

/-- A float is itself again. -/
theorem toFloat_again {number : Numeral} (h : toFloat v = .ok number) : toFloat (.number number) = .ok number := by
  have hagain : ∀ d : Decimal, toFloat (.number d.toFloat) = .ok d.toFloat := by
    intro d
    cases hd : d.toFloat with
    | nonFinite => rfl
    | finite e =>
        obtain ⟨hint, he⟩ := Decimal.toFloat_toFloat hd
        rw [toFloat, OrderRules.tooLarge, hint, he]
        rfl
  cases v with
  | number x =>
      cases x with
      | nonFinite =>
          cases h
          rfl
      | finite d =>
          rw [toFloat] at h
          split at h
          · cases h
          · cases h
            exact hagain d
  | bool b =>
      cases h
      exact hagain _
  | text s =>
      rw [toFloat] at h
      split at h
      · cases h
        exact hagain _
      · cases h
        rfl
      · cases h
  | null | list | object => cases h

theorem floatOrNone_of_toFloat {number : Numeral} (h : toFloat v = .ok number) : floatOrNone v = .ok (some number) := by
  cases v with
  | null => cases h
  | bool | number | text | list | object => exact map_ok.mpr ⟨number, h, rfl⟩

theorem mergedFacts_agrees {e : Parameters} (hprep : singleFacts w operation e = .ok f) (hmerged : Merged q target e)
    (hexec : Real.mergedFacts x p operation' target = .ok f') (hothers : q.others = p.others)
    (hsame : SameAnswers w.instruments x.instruments) : f = f' := by
  have hf := singleFacts_ok hprep
  obtain ⟨numeric, hnumeric⟩ := hf.price
  obtain ⟨n, hn, hleg⟩ := hf.leg
  obtain ⟨a, ha, haux⟩ := hmerged.aux
  unfold Real.mergedFacts at hexec
  obtain ⟨m, hm, hexec⟩ := bind_ok.mp hexec
  obtain ⟨a', ha', hexec⟩ := bind_ok.mp hexec
  obtain ⟨_, -, hexec⟩ := bind_ok.mp hexec
  obtain ⟨number, hnumber, hexec⟩ := bind_ok.mp hexec
  obtain ⟨facts, hfacts, hexec⟩ := bind_ok.mp hexec
  obtain ⟨_, -, hexec⟩ := bind_ok.mp hexec
  cases hexec
  cases ha.symm.trans ha'
  have hleg' := singleLegFacts_ok hfacts
  have hqty := hmerged.qty
  have hprice := hmerged.price
  rw [hothers] at hqty hprice
  have hn' : n = m := by
    rw [hqty] at hn
    exact Except.ok.inj ((wholeQuantity_any hn).symm.trans hm)
  subst hn'
  rw [hprice] at hnumeric
  cases (floatOrNone_of_toFloat hnumeric).symm.trans hnumber
  have htype : (Value.get e.others "order_type").str = textOr "NORMAL" (Value.get target "order_type") := by
    rw [textOr, if_neg (fun hno => (falsy_unnamed hno).1 (hmerged.orderType ▸ hleg.typed)), hmerged.orderType]
  have hside : (Value.get e.others "trd_side").str = textOr "" (Value.get target "trd_side") := by
    rw [textOr, if_neg (fun hno => (falsy_unnamed hno).2 (hmerged.side ▸ List.contains_iff_mem.mp hf.side)), hmerged.side]
  refine hleg.unique hleg' hsame ?_ htype hside (fun k hk => wholeQuantity_any hk) ?_ ?_
  · rw [hmerged.code]
    rfl
  · rw [hprice, floatOrNone_of_toFloat hnumeric]
    exact (floatOrNone_of_toFloat (toFloat_again hnumeric)).symm
  · rw [haux]
    rfl

theorem modifyOrder_agrees {contract : Option Contract} (hprep : mutationReview w "modify_order" q = .ok contract)
    (hexec : Real.modifyOrder x p = .ok found) (hothers : q.others = p.others)
    (hop : q.modifyOrderOp.getD "" = RealBoundary.requestedOp p) (hsame : SameAnswers w.instruments x.instruments)
    (htarget : ∀ target target', w.fetchOrder = .ok target → x.fetchOrder = .ok target' → target = target') :
    found.facts.mapM contractView = .ok contract := by
  unfold mutationReview at hprep
  obtain ⟨target, hfetch, hprep⟩ := bind_ok.mp hprep
  unfold Real.modifyOrder at hexec
  obtain ⟨_, -, hexec⟩ := bind_ok.mp hexec
  obtain ⟨_, -, hexec⟩ := bind_ok.mp hexec
  by_cases hexposing : RealBoundary.exposingOps.contains (RealBoundary.requestedOp p) = true
  · rw [exposes, hop, if_pos (by simpa using hexposing)] at hprep
    obtain ⟨e, he, hprep⟩ := bind_ok.mp hprep
    obtain ⟨f, hf, hprep⟩ := bind_ok.mp hprep
    obtain ⟨c, hc, hprep⟩ := bind_ok.mp hprep
    cases hprep
    rw [if_pos hexposing] at hexec
    obtain ⟨_, -, hexec⟩ := bind_ok.mp hexec
    obtain ⟨account, -, hexec⟩ := bind_ok.mp hexec
    rw [if_pos hexposing] at hexec
    obtain ⟨target', hfetch', hexec⟩ := bind_ok.mp hexec
    obtain ⟨facts, hfacts, hexec⟩ := bind_ok.mp hexec
    cases hexec
    cases htarget target target' (lift_ok_iff.mp hfetch) (lift_ok_iff.mp hfetch')
    rw [← mergedFacts_agrees hf (effective_ok he) hfacts hothers hsame]
    exact map_ok.mpr ⟨c, hc, rfl⟩
  · rw [exposes, hop, if_neg (by simpa using hexposing)] at hprep
    cases hprep
    rw [if_neg hexposing] at hexec
    obtain ⟨account, -, hexec⟩ := bind_ok.mp hexec
    rw [if_neg hexposing] at hexec
    cases hexec
    rfl

end RealOrders

section PaperOrders

open PaperRequests PaperBoundary

variable {y : PaperBoundary.World} {kind : Kind} {fields order : List (String × Value)} {facts : Option OrderFacts}
  {instrument : InstrumentFacts} {d number : Decimal} {c : Contract} {numeric : Numeral}

theorem checkQuantity_ok (h : checkQuantity v = .ok d) : v = .number (.finite d) := by
  unfold checkQuantity at h
  split at h
  · cases h
  · split at h
    · obtain ⟨-, h⟩ := check_bind_ok.mp h
      cases h
      rfl
    · cases h

/-- What the paper executor assesses. -/
structure Assessed (y : PaperBoundary.World) (fields order : List (String × Value)) (f : OrderFacts) : Prop where
  terms : ∃ instrument d number, (∃ find, y.instruments = some find ∧ find [(Value.get order "code").str] = .ok [instrument]) ∧
    quantity fields order = .number (.finite d) ∧ decimalPrice (priceText fields order) = .ok number ∧
    f = orderFacts order instrument d number

theorem verifiedInstrument_ok {code : String} (h : verifiedInstrument y code = .ok instrument) :
    ∃ find, y.instruments = some find ∧ find [code] = .ok [instrument] := by
  unfold verifiedInstrument at h
  split at h
  · cases h
  · next find hfind =>
      obtain ⟨found, hfound, h⟩ := bind_ok.mp h
      split at h
      · obtain ⟨-, h⟩ := check_bind_ok.mp h
        cases h
        exact ⟨find, hfind, lift_ok_iff.mp hfound⟩
      · cases h

theorem prepare_assessed (h : PaperBoundary.prepare y kind fields = .ok facts) :
    (kind = .cancel ∧ facts = none) ∨
      kind ≠ .cancel ∧ ∃ order f, targetOrder y kind fields = .ok order ∧ Assessed y fields order f ∧ facts = some f := by
  unfold PaperBoundary.prepare PaperBoundary.review at h
  obtain ⟨reviewed, hreviewed, h⟩ := bind_ok.mp h
  obtain ⟨-, hreviewed⟩ := check_bind_ok.mp hreviewed
  obtain ⟨order, horder, hreviewed⟩ := bind_ok.mp hreviewed
  obtain ⟨-, hreviewed⟩ := check_bind_ok.mp hreviewed
  by_cases hkind : kind = .cancel
  · rw [if_pos hkind] at hreviewed
    cases hreviewed
    cases h
    exact .inl ⟨hkind, rfl⟩
  · rw [if_neg hkind] at hreviewed
    obtain ⟨instrument, hinstrument, hreviewed⟩ := bind_ok.mp hreviewed
    cases hreviewed
    obtain ⟨f, hf, h⟩ := bind_ok.mp h
    cases h
    unfold checkTerms at hf
    obtain ⟨d, hd, hf⟩ := bind_ok.mp hf
    obtain ⟨number, hnumber, hf⟩ := bind_ok.mp hf
    obtain ⟨_, -, hf⟩ := bind_ok.mp hf
    obtain ⟨-, hf⟩ := check_bind_ok.mp hf
    obtain ⟨_, -, hf⟩ := bind_ok.mp hf
    cases hf
    exact .inr ⟨hkind, order, _, horder, ⟨instrument, d, number, verifiedInstrument_ok hinstrument, checkQuantity_ok hd, hnumber, rfl⟩, rfl⟩

/-- The text of a price denotes the same float as the price. -/
theorem text_price (hnumeric : toFloat v = .ok numeric) (hnumber : decimalPrice (.text v.str) = .ok number) :
    numeric = number.toFloat := by
  cases v with
  | text s => exact Except.ok.inj (hnumeric.symm.trans (toFloat_decimalPrice hnumber))
  | number x =>
      cases x with
      | finite e =>
          have he : number = e := Decimal.plainDecimal_text (decimalPrice_plain hnumber)
          rw [toFloat] at hnumeric
          split at hnumeric
          · cases hnumeric
          · rw [he]
            exact (Except.ok.inj hnumeric).symm
      | nonFinite => cases hnumber
  | bool b => cases b <;> cases hnumber
  | null | list | object => cases hnumeric

theorem toString_inj {m n : ℕ} (h : toString m = toString n) : m = n := by
  rw [← ClientAuthorization.toNat_toString m, h, ClientAuthorization.toNat_toString]

/-- The contract of a reviewed order and that of the order the paper executor assesses
differ in the trigger price and in the quantity, if at all. -/
theorem contract_agrees_iff (hn : wholeQuantity operation qty = .ok n)
    (hleg : SingleLeg before operation code orderType side (TradePreparation.whole n) price aux f) (hview : contractView f = .ok c)
    (hfound : ∃ find, after = some find ∧ find [code.str] = .ok [instrument]) (hsame : SameAnswers before after)
    (htype : orderType.str = "NORMAL") (hside : side.str = (Value.get order "trd_side").str)
    (hprice : floatOrNone price = .ok (some number.toFloat)) :
    ∃ c', contractView (orderFacts order instrument d number) = .ok c' ∧ (c' = c ↔ decimalOf aux = none ∧ shares d = n) := by
  obtain ⟨find, i, name, hfind, hone, rfl, hlegs⟩ := hleg.found
  obtain ⟨find', hfind', hone'⟩ := hfound
  cases List.singleton_inj.mp (hsame find hfind find' hfind' _ _ _ hone hone')
  obtain ⟨m, hm, hq⟩ := hleg.qty
  cases (wholeQuantity_whole hn).symm.trans hm
  have hnumber := Except.ok.inj (hleg.price.symm.trans hprice)
  obtain ⟨text, htext, hview⟩ := bind_ok.mp hview
  cases hview
  rw [hnumber] at htext
  refine ⟨_, bind_ok.mpr ⟨text, htext, rfl⟩, ?_⟩
  rw [hleg.orderType, hleg.side, hq, hleg.aux, hleg.single, hlegs, htype, hside]
  constructor
  · intro h
    injection h with _ _ hqty _ haux
    exact ⟨Option.map_eq_none_iff.mp haux.symm, toString_inj hqty⟩
  · rintro ⟨haux, hshares⟩
    rw [haux, ← hshares]
    rfl

theorem lookup_named {names : List String} {name : String} {g : String → Value} (h : name ∈ names) :
    (names.map (fun n => (n, g n))).lookup name = some (g name) := by
  induction names with
  | nil => cases h
  | cons n names ih =>
      rw [List.map_cons, List.lookup_cons]
      by_cases hn : name = n
      · subst hn
        rw [beq_self_eq_true]
      · rw [beq_eq_false_iff_ne.mpr hn]
        exact ih ((List.mem_cons.mp h).resolve_left hn)

theorem get_named {names : List String} {name : String} {g : String → Value} (h : name ∈ names) :
    Value.get (names.map (fun n => (n, g n))) name = g name :=
  Value.get_of_lookup (lookup_named h)

theorem whole_ok (h : PaperRequests.whole v = .ok ()) : ∃ d, v = .number (.finite d) ∧ d.isInt = true := by
  unfold PaperRequests.whole at h
  split at h
  · next d =>
      have hwhole := check_ok.mp h
      exact ⟨d, rfl, (Bool.and_eq_true_iff.mp hwhole).1⟩
  · cases h

theorem shares_int (h : d.isInt = true) : shares d = d.value.num.toNat := by
  rw [shares, Decimal.amount, if_pos h, Decimal.value_of_int h, Int.floor_intCast, Rat.num_intCast]

/-- What is checked of the fields of a placement before the journal is asked. -/
theorem place_schema_ok (h : schema .place fields = .ok ()) (hprice : has fields "price" = true) (hqty : has fields "qty" = true) :
    (Value.get fields "order_type").str = "NORMAL" ∧ (Value.get fields "aux_price").isNull = true := by
  unfold schema at h
  rw [if_pos hprice] at h
  obtain ⟨_, -, h⟩ := bind_ok.mp h
  rw [if_pos hqty] at h
  obtain ⟨_, -, h⟩ := bind_ok.mp h
  rw [if_pos rfl] at h
  obtain ⟨htype, h⟩ := check_bind_ok.mp h
  obtain ⟨-, h⟩ := check_bind_ok.mp h
  have hplain := check_ok.mp h
  refine ⟨(of_decide_eq_true htype).1, ?_⟩
  rw [Bool.and_eq_true, List.all_eq_true] at hplain
  exact hplain.2 "aux_price" (by decide)

/-- A quantity that a request gives is a whole number. -/
theorem schema_whole (h : schema kind fields = .ok ()) (hqty : fields.lookup "qty" = some v) :
    ∃ d, v = .number (.finite d) ∧ d.isInt = true := by
  have hgiven : has fields "qty" = true := by rw [has, hqty, Option.isSome_some]
  unfold schema at h
  rw [if_pos hgiven, Value.get_of_lookup hqty] at h
  by_cases hprice : has fields "price" = true
  · rw [if_pos hprice] at h
    obtain ⟨_, -, h⟩ := bind_ok.mp h
    obtain ⟨_, hwhole, -⟩ := bind_ok.mp h
    exact whole_ok hwhole
  · rw [if_neg hprice] at h
    obtain ⟨_, hwhole, -⟩ := bind_ok.mp h
    exact whole_ok hwhole

/-- A placement that is reviewed is the one that the paper executor assesses. -/
theorem paperPlace_agrees (hprep : singlePreview w q = .ok c) (hgiven : PaperRequests.placeOrder p = .ok (kind, fields))
    (hschema : schema kind fields = .ok ()) (hexec : PaperBoundary.prepare y kind fields = .ok facts)
    (hothers : q.others = p.others) (hsame : SameAnswers w.instruments y.instruments) :
    facts.mapM contractView = .ok (some c) := by
  obtain ⟨f, hf, hview⟩ := singlePreview_ok hprep
  obtain ⟨numeric, hnumeric⟩ := hf.price
  obtain ⟨n, hn, hleg⟩ := hf.leg
  obtain ⟨_, -, hgiven⟩ := bind_ok.mp hgiven
  cases hgiven
  have hget : ∀ name ∈ placeFields, Value.get (placeFields.map (fun name => (name, Value.get p.others name))) name =
      Value.get q.others name := fun name hname => by rw [hothers, get_named hname]
  have hlookup : ∀ name ∈ placeFields, (placeFields.map (fun name => (name, Value.get p.others name))).lookup name =
      some (Value.get q.others name) := fun name hname => by rw [hothers, lookup_named hname]
  have hhas : ∀ name ∈ placeFields, has (placeFields.map (fun name => (name, Value.get p.others name))) name = true :=
    fun name hname => by rw [has, hlookup name hname, Option.isSome_some]
  obtain ⟨d, hd, hint⟩ := schema_whole hschema (hlookup "qty" (by decide))
  obtain ⟨htype, haux⟩ := place_schema_ok hschema (hhas "price" (by decide)) (hhas "qty" (by decide))
  obtain ⟨hcancel, -⟩ | ⟨-, order, f', horder, ⟨instrument, d', number, hfound, hquantity, hnumber, rfl⟩, rfl⟩ :=
    prepare_assessed hexec
  · cases hcancel
  cases horder
  generalize placeFields.map (fun name => (name, Value.get p.others name)) = fields at *
  rw [quantity, hlookup "qty" (by decide), Option.getD_some] at hquantity
  cases hquantity.symm.trans hd
  rw [priceText, hlookup "price" (by decide), Option.getD_some] at hnumber
  rw [hget "order_type" (by decide)] at htype
  rw [hget "aux_price" (by decide)] at haux
  rw [hget "code" (by decide)] at hfound
  have htext : toFloat (Value.get q.others "price") = .ok number.toFloat := toFloat_decimalPrice hnumber
  obtain ⟨c', hc', hiff⟩ := contract_agrees_iff (d := d) hn hleg hview hfound hsame htype
    (congrArg Value.str (hget "trd_side" (by decide)).symm) (floatOrNone_of_toFloat htext)
  have hshares : shares d = n := by
    obtain ⟨e, he, -, -, rfl⟩ := wholeQuantity_iff.mp hn
    cases hquantity.symm.trans he
    exact shares_int hint
  have hnone : decimalOf (Value.get q.others "aux_price") = none := by
    cases hv : Value.get q.others "aux_price" with
    | null => rfl
    | bool | number | text | list | object =>
        rw [hv] at haux
        cases haux
  rw [← hiff.mpr ⟨hnone, hshares⟩]
  exact map_ok.mpr ⟨c', hc', rfl⟩

/-- What a modification leaves to the order there is, where its two readers differ: one of
them reads the trigger price too, and one reads the quantity by the digits of its text. -/
structure Alike (p : Parameters) (target : List (String × Value)) : Prop where
  untriggered : ∀ d, optionalFloat (Value.get target "aux_price") ≠ .ok (some d)
  exact : (Value.get p.others "qty").isNull = true → ∀ d, Value.get target "qty" = .number (.finite d) → (shares d : ℚ) = d.value

theorem modify_lookup {name : String} {a b : Value} (h : name = "qty" ∨ name = "price") :
    ([("order_id", a), ("adjust_limit", b)] ++ PaperRequests.given order "qty" ++ PaperRequests.given order "price").lookup name =
      if (Value.get order name).isNull then none else some (Value.get order name) := by
  unfold PaperRequests.given
  rcases h with rfl | rfl <;> by_cases hqty : (Value.get order "qty").isNull = true <;>
    by_cases hprice : (Value.get order "price").isNull = true <;> simp [hqty, hprice, List.lookup_cons]

theorem decimalOf_optionalNumber (a : Option Decimal) : decimalOf (optionalNumber a) = a := by
  cases a <;> rfl

theorem targetOrder_modify (h : targetOrder y .modify fields = .ok order) :
    y.fetchOrder = .ok order ∧ (Value.get order "order_type").str = "NORMAL" := by
  unfold targetOrder at h
  rw [if_neg (by decide)] at h
  obtain ⟨found, hfound, h⟩ := bind_ok.mp h
  obtain ⟨hscope, h⟩ := check_bind_ok.mp h
  rw [if_pos rfl] at h
  obtain ⟨-, h⟩ := check_bind_ok.mp h
  obtain ⟨_, -, h⟩ := bind_ok.mp h
  cases h
  exact ⟨lift_ok_iff.mp hfound, (of_decide_eq_true hscope).2.1⟩

theorem shares_exact (hpos : 0 < d.value) (hden : d.value.den = 1) : shares d = d.value.num.toNat ↔ (shares d : ℚ) = d.value := by
  have hnum : ((d.value.num.toNat : ℕ) : ℚ) = d.value := by
    have hz : ((d.value.num.toNat : ℕ) : ℤ) = d.value.num := Int.toNat_of_nonneg (Rat.num_pos.mpr hpos).le
    rw [← Int.cast_natCast, hz]
    exact Rat.coe_int_num_of_den_eq_one hden
  rw [← hnum, Nat.cast_inj, hnum]

/-- The reviewed contract of a modification is that of the order that the paper executor
assesses just if the order there is reads alike. -/
theorem paperModify_agrees {contract : Option Contract} {target : List (String × Value)} {policy : Accounts.AccountPolicy}
    (hprep : mutationReview w "modify_order" q = .ok contract) (hop : q.modifyOrderOp = some "NORMAL")
    (hgiven : PaperRequests.modifyOrder policy p = .ok (.modify, fields)) (hschema : schema .modify fields = .ok ())
    (hexec : PaperBoundary.prepare y .modify fields = .ok facts) (hothers : q.others = p.others)
    (hsame : SameAnswers w.instruments y.instruments)
    (htarget : ∀ found found', w.fetchOrder = .ok found → y.fetchOrder = .ok found' → found = found')
    (hfetch : w.fetchOrder = .ok target) : facts.mapM contractView = .ok contract ↔ Alike p target := by
  unfold mutationReview at hprep
  obtain ⟨found, hfound, hprep⟩ := bind_ok.mp hprep
  cases (lift_ok_iff.mp hfound).symm.trans hfetch
  rw [exposes, hop, if_pos (by decide)] at hprep
  obtain ⟨e, he, hprep⟩ := bind_ok.mp hprep
  obtain ⟨f, hf, hprep⟩ := bind_ok.mp hprep
  obtain ⟨c, hc, hprep⟩ := bind_ok.mp hprep
  cases hprep
  have hmerged := effective_ok he
  have hr := singleFacts_ok hf
  obtain ⟨numeric, hnumeric⟩ := hr.price
  obtain ⟨n, hn, hleg⟩ := hr.leg
  obtain ⟨a, ha, haux⟩ := hmerged.aux
  have hqty := hmerged.qty
  have hprice := hmerged.price
  rw [hothers] at hqty hprice
  obtain ⟨hcancel, -⟩ | ⟨-, order, f', horder, ⟨instrument, d, number, hinstrument, hquantity, hnumber, rfl⟩, rfl⟩ :=
    prepare_assessed hexec
  · cases hcancel
  obtain ⟨hagain, htype⟩ := targetOrder_modify horder
  cases htarget _ _ hfetch hagain
  have hlookup : ∀ name, name = "qty" ∨ name = "price" → fields.lookup name =
      if (Value.get p.others name).isNull then none else some (Value.get p.others name) := by
    obtain ⟨_, -, hgiven⟩ := bind_ok.mp hgiven
    obtain ⟨-, hgiven⟩ := check_bind_ok.mp hgiven
    obtain ⟨-, hgiven⟩ := check_bind_ok.mp hgiven
    split at hgiven
    · cases hgiven
    · cases hgiven
      exact fun name => modify_lookup
  have hread : Value.get e.others "qty" = .number (.finite d) := by
    rw [hqty, ← hquantity, quantity, hlookup "qty" (.inl rfl), Value.orElse]
    split <;> rfl
  have hfloat : floatOrNone (Value.get e.others "price") = .ok (some number.toFloat) := by
    rw [priceText, hlookup "price" (.inr rfl)] at hnumber
    rw [hprice, Value.orElse] at hnumeric ⊢
    split at hnumber
    · next hnull =>
        rw [if_pos hnull] at hnumeric ⊢
        rw [floatOrNone_of_toFloat hnumeric, text_price hnumeric hnumber]
    · next hgiven =>
        rw [if_neg hgiven]
        exact floatOrNone_of_toFloat (toFloat_decimalPrice hnumber)
  rw [← hmerged.code] at hinstrument
  rw [← hmerged.orderType] at htype
  obtain ⟨c', hc', hiff⟩ := contract_agrees_iff (d := d) hn hleg hc hinstrument hsame htype (congrArg Value.str hmerged.side) hfloat
  obtain ⟨d', hd', hpos, hden, rfl⟩ := wholeQuantity_iff.mp hn
  cases hread.symm.trans hd'
  have hmap : (some (orderFacts target instrument d number)).mapM contractView = .ok (some c') := map_ok.mpr ⟨c', hc', rfl⟩
  rw [hmap, Except.ok.injEq, Option.some.injEq, hiff, haux, decimalOf_optionalNumber, shares_exact hpos hden]
  constructor
  · rintro ⟨rfl, hexact⟩
    refine ⟨fun d hd => ?_, fun hnull d' hd' => ?_⟩
    · cases ha.symm.trans hd
    · rw [hqty, Value.orElse, if_pos hnull] at hread
      cases hread.symm.trans hd'
      exact hexact
  · rintro ⟨hnone, hexact⟩
    constructor
    · cases a with
      | none => rfl
      | some x => exact absurd ha (hnone x)
    · by_cases hnull : (Value.get p.others "qty").isNull = true
      · rw [hqty, Value.orElse, if_pos hnull] at hread
        exact hexact hnull d hread
      · have hsome : fields.lookup "qty" = some (Value.get p.others "qty") := by rw [hlookup "qty" (.inl rfl), if_neg hnull]
        rw [hqty, Value.orElse, if_neg hnull] at hread
        obtain ⟨d', hd', hint⟩ := schema_whole hschema hsome
        cases hread.symm.trans hd'
        exact (shares_exact hpos hden).mp (shares_int hint)

end PaperOrders

end MoomooMcp.ReviewedOrders
