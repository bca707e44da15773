import MoomooMcp.OrderContract
import MoomooMcp.PlacementAccounting

namespace MoomooMcp.RecoveryEvidence

open Accounting (checkAll refuseIf)
open ExecutionStore (Resolution)
open Checks

variable {env : Environment} {row : Journaled} {m o : Fields} {query : PositionQuery}

/-- A leg as a caller states it: texts for its code and its side, and a ratio that can be journaled. -/
def PlainLeg (leg : Value) : Prop :=
  ∃ fields code side ratio, leg = .object fields ∧ Value.get fields "code" = .text code ∧
    Value.get fields "trd_side" = .text side ∧ number (Value.get fields "qty_ratio") = .ok ratio

/-- A placement as it was dispatched: its request, and the terms that its
validation and the types of its parameters leave. -/
structure Dispatched (env : Environment) (row : Journaled) (m : Fields) : Prop where
  merged : row.mergedRequest = some m
  tag : row.orderTag ≠ none
  qty : ∃ n : ℕ, 0 < n ∧ n < 10 ^ 4300 ∧ m.lookup "qty" = some (.number (.finite ⟨n, 0⟩))
  price : ∃ v p, m.lookup "price" = some v ∧ number v = .ok p ∧ (env = .simulate → 0 < p.value)
  type : ∃ s, m.lookup "order_type" = some (.text s) ∧ (env = .simulate → s = "NORMAL")
  instrument : Real.combo row = false → ∀ name ∈ instrument, ∃ s, s ≠ "" ∧ m.lookup name = some (.text s) ∧
    row.request.lookup name = some (.text s)
  market : env = .simulate → (text m "code").toList.take 3 = "US.".toList
  side : env = .simulate → text m "trd_side" = "BUY" ∨ text m "trd_side" = "SELL"
  supplied : ∀ field ∈ Real.optionalFields, (Value.get m field.1).isNull = true ∨
    if field.2 then ∃ d, number (Value.get m field.1) = .ok d else ∃ s, Value.get m field.1 = .text s
  legs : Real.combo row = true → ∃ legs built, m.lookup "combo_legs" = some (.list legs) ∧
    OrderContract.buildComboLegs (.list legs) = .ok built ∧ ∀ leg ∈ legs, PlainLeg leg

/-- The dispatched terms that a broker row shows under the same names. -/
def echoed : List String := ["code", "trd_side", "order_type", "qty", "price"] ++ Real.optionalFields.map (·.1)

/-- A broker row that shows the dispatched terms as they are, under the tag of the
placement, with a known status and a fill within the quantity. -/
structure Echo (row : Journaled) (m o : Fields) : Prop where
  identity : ∃ id, asText (Value.get o "order_id") = some id ∧ ∀ recorded ∈ row.brokerOrderId, recorded = id
  remark : asText (Value.get o "remark") = row.orderTag
  status : text o "order_status" ∈ terminalBroker ++ activeBroker
  terms : ∀ name ∈ echoed, ∀ v, m.lookup name = some v → Value.get o name = v
  legs : ∀ v, m.lookup "combo_legs" = some v → Real.comboLegs o = v
  filled : ∃ qty filled, number (Value.get o "qty") = .ok qty ∧ number (Value.get o "dealt_qty") = .ok filled ∧
    0 ≤ filled.value ∧ filled.value ≤ qty.value
  average : ∃ average, number (Value.get o "dealt_avg_price") = .ok average ∧
    (Real.combo row = false → 0 ≤ average.value)

theorem cleaned_text (s : String) : OrderContract.cleaned (.text s) = String.ofList (Text.strip s.toList) := rfl

theorem normalize_cleaned (s : String) : (OrderContract.cleaned (.text s)).map Char.toUpper = Text.normalize s := by
  rw [cleaned_text, Text.normalize, String.map_eq_internal, String.toList_ofList]

theorem number_of_finite {d r : Decimal} (h : number (.number (.finite d)) = .ok r) : r = d := by
  by_cases hlong : d.isInt = true ∧ 4300 < Decimal.digits d.coefficient.natAbs
  · rw [number, if_pos hlong] at h
    cases h
  · rw [number, if_neg hlong] at h
    exact (Except.ok.inj h).symm

theorem qtyRatioOf_ok {index n : ℕ} {fields : Fields} (h : OrderContract.qtyRatioOf index fields = .ok n) :
    ∃ d : Decimal, Value.get fields "qty_ratio" = .number (.finite d) ∧ d.isInt = true ∧ 0 < d.coefficient := by
  unfold OrderContract.qtyRatioOf at h
  split at h
  · cases h
  · next d hd =>
      split at h
      · cases h
      · next hint =>
          split at h
          · cases h
          · next hpos => exact ⟨d, Value.get_of_lookup hd, by simpa using hint, not_le.mp hpos⟩
  · cases h

theorem positionIdOf_ok {index : ℕ} {v : Value} {p : Option ℤ} (h : OrderContract.positionIdOf index v = .ok p) :
    Real.positionIdentity v = .ok p := by
  unfold OrderContract.positionIdOf at h
  unfold Real.positionIdentity
  cases v with
  | null => exact h
  | bool b => cases h
  | number n =>
      cases n with
      | nonFinite => cases h
      | finite d =>
          dsimp only at h ⊢
          split at h
          · next hint => rw [if_pos hint]; exact h
          · cases h
  | text s =>
      dsimp only at h ⊢
      split at h
      · next hdigits => rw [if_pos hdigits]; exact h
      · cases h
  | list vs => cases h
  | object fs => cases h

/-- A leg that can be submitted can be compared. -/
theorem legIdentity_built {index : ℕ} {leg : Value} {built : OrderContract.ComboLeg} (hp : PlainLeg leg)
    (h : OrderContract.buildLeg index leg = .ok built) : ∃ identity, Real.legIdentity leg = .ok identity := by
  obtain ⟨fields, code, side, ratio, rfl, hcode, hside, hratio⟩ := hp
  simp only [OrderContract.buildLeg, hcode, hside] at h
  obtain ⟨_, hnamed, h⟩ := bind_ok.mp h
  obtain ⟨_, hsided, h⟩ := bind_ok.mp h
  obtain ⟨n, hn, h⟩ := bind_ok.mp h
  obtain ⟨position, hposition, _⟩ := bind_ok.mp h
  obtain ⟨d, hd, hint, hpos⟩ := qtyRatioOf_ok hn
  have hnamed' : String.ofList (Text.strip code.toList) ≠ "" := of_decide_eq_true (OrderRules.check_ok.mp hnamed)
  have hsided' : Text.normalize side = "BUY" ∨ Text.normalize side = "SELL" := by
    rw [← normalize_cleaned]
    exact of_decide_eq_true (OrderRules.check_ok.mp hsided)
  rw [hd] at hratio
  obtain rfl : ratio = d := number_of_finite hratio
  have hval := Decimal.value_of_int hint
  have hratio' : ¬(¬(Text.normalize side = "BUY" ∨ Text.normalize side = "SELL") ∨ ratio.value ≤ 0 ∨ ratio.value.den ≠ 1) := by
    rw [hval]
    rintro (hn | hle | hden)
    · exact hn hsided'
    · exact absurd (by exact_mod_cast hle) (not_le.mpr hpos)
    · exact hden (Rat.den_intCast _)
  refine ⟨⟨String.ofList (Text.strip code.toList), Text.normalize side, ratio.value.num, position⟩, ?_⟩
  simp only [Real.legIdentity, hcode, hside, hd, asText, Option.map_some, Option.getD_some]
  refine bind_ok.mpr ⟨(), refuseIf_ok.mpr hnamed', bind_ok.mpr ⟨ratio, hratio, ?_⟩⟩
  exact bind_ok.mpr ⟨(), refuseIf_ok.mpr hratio', bind_ok.mpr ⟨position, positionIdOf_ok hposition, rfl⟩⟩

theorem buildLegs_ok {index : ℕ} {legs : List Value} {built : List OrderContract.ComboLeg}
    (hp : ∀ leg ∈ legs, PlainLeg leg) (h : OrderContract.buildLegs index legs = .ok built) :
    ∃ identities, legs.mapM Real.legIdentity = .ok identities := by
  induction legs generalizing index built with
  | nil => exact ⟨[], rfl⟩
  | cons leg rest ih =>
      obtain ⟨b, hb, h⟩ := bind_ok.mp (show OrderContract.buildLeg index leg >>= _ = _ from h)
      obtain ⟨bs, hbs, _⟩ := bind_ok.mp h
      obtain ⟨identity, hi⟩ := legIdentity_built (hp leg List.mem_cons_self) hb
      obtain ⟨identities, his⟩ := ih (fun x hx => hp x (List.mem_cons_of_mem _ hx)) hbs
      refine ⟨identity :: identities, ?_⟩
      rw [List.mapM_cons]
      exact bind_ok.mpr ⟨identity, hi, bind_ok.mpr ⟨identities, his, rfl⟩⟩

/-- Legs that can be submitted, with texts for their codes, can be compared. -/
theorem legIdentities_built {legs : List Value} {built : List OrderContract.ComboLeg}
    (hp : ∀ leg ∈ legs, PlainLeg leg) (h : OrderContract.buildComboLegs (.list legs) = .ok built) :
    ∃ identities, Real.legIdentities (.list legs) = .ok identities := by
  obtain ⟨_, hlength, h⟩ := bind_ok.mp (show OrderRules.check _ _ >>= _ = _ from h)
  obtain ⟨bs, hbs, _⟩ := bind_ok.mp h
  obtain ⟨identities, his⟩ := buildLegs_ok hp hbs
  refine ⟨identities, ?_⟩
  cases legs with
  | nil => exact absurd (of_decide_eq_true (OrderRules.check_ok.mp hlength)) (by simp)
  | cons leg rest => exact his

theorem number_natural {n : ℕ} (h : n < 10 ^ 4300) : number (.number (.finite ⟨n, 0⟩)) = .ok ⟨n, 0⟩ := by
  have hdigits : Decimal.digits n ≤ 4300 := Decimal.digits_le (by norm_num) h
  exact if_neg (fun hlong => absurd hlong.2 (not_lt.mpr hdigits))

theorem value_natural (n : ℕ) : (⟨n, 0⟩ : Decimal).value = n := by
  rw [Decimal.value, zpow_zero, mul_one, Int.cast_natCast]

/-- The remaining quantity of a fill within a quantity of so many digits does not overflow. -/
theorem remaining_ok {f : Fill} {n : ℕ} (hq : f.qty.value = n) (hn : n < 10 ^ 4300) (hpos : 0 ≤ f.filled.value)
    (hle : f.filled.value ≤ f.qty.value) : ∃ r, f.remaining = .ok r := by
  unfold Fill.remaining
  split
  · exact ⟨_, rfl⟩
  · have hsmall : |f.qty.value + ({ f.filled with coefficient := -f.filled.coefficient } : Decimal).value| <
        (10 : ℚ) ^ (4300 : ℤ) := by
      rw [Decimal.value_neg, ← sub_eq_add_neg, abs_of_nonneg (sub_nonneg.mpr hle)]
      refine (sub_le_self _ hpos).trans_lt ?_
      rw [hq]
      exact_mod_cast hn
    obtain ⟨r, hr⟩ := Decimal.add_isSome (by decide : 0 < precision) hsmall (by decide)
    refine ⟨r, ?_⟩
    rw [minus, plus, hr]
    rfl

/-- What the checks before dispatch leave of a placement's terms, as recovery reads them off a row. -/
structure Shown (env : Environment) (row : Journaled) (o : Fields) (f : Fill) : Prop where
  fill : fill o = .ok f
  qty : ∃ n : ℕ, 0 < n ∧ n < 10 ^ 4300 ∧ f.qty.value = n
  price : env = .simulate → 0 < f.price.value
  filled : 0 ≤ f.filled.value ∧ f.filled.value ≤ f.qty.value
  average : Real.combo row = false → 0 ≤ f.average.value
  known : f.status ∈ terminalBroker ++ activeBroker

variable {f : Fill}

theorem Echo.term (he : Echo row m o) {name : String} (hname : name ∈ echoed) {v : Value} (hv : m.lookup name = some v) :
    Value.get o name = v := he.terms name hname v hv

theorem Echo.shown (hd : Dispatched env row m) (he : Echo row m o) : ∃ f, Shown env row o f := by
  obtain ⟨n, hpos, hn, hqty⟩ := hd.qty
  obtain ⟨v, p, hprice, hp, hpaper⟩ := hd.price
  obtain ⟨q, d, hq, hd', hfilled⟩ := he.filled
  obtain ⟨a, ha, haverage⟩ := he.average
  have hgq : Value.get o "qty" = .number (.finite ⟨n, 0⟩) := he.term (by decide) hqty
  have hgp : Value.get o "price" = v := he.term (by decide) hprice
  have hqn : q = ⟨n, 0⟩ := by
    rw [hgq, number_natural hn] at hq
    exact (Except.ok.inj hq).symm
  refine ⟨⟨text o "order_status", q, p, d, a⟩, fill_ok.mpr ⟨rfl, hq, hgp ▸ hp, hd', ha⟩, ⟨n, hpos, hn, ?_⟩, hpaper, hfilled,
    haverage, he.status⟩
  rw [hqn]
  exact value_natural n

theorem asText_of_known {name : String} {known : List String} (hne : "" ∉ known) (h : text o name ∈ known) :
    asText (Value.get o name) = some (text o name) := by
  unfold text at h ⊢
  cases ha : asText (Value.get o name) with
  | none =>
      rw [ha] at h
      exact absurd h hne
  | some s => rfl

theorem cell_of_asText {v : Value} {s : String} (h : asText v = some s) : cell v = some (.text s) := by
  cases v with
  | text t =>
      cases h
      rfl
  | number n => cases n <;> cases h
  | null | bool | list | object => cases h

theorem combo_false (hplace : Placement env row) (h : env = .simulate) : Real.combo row = false := by
  have hkind : row.kind = .place := hplace.resolve_right (fun hn => nomatch h.symm.trans hn.1)
  rw [Real.combo, hkind]
  rfl

theorem Echo.status_cell (he : Echo row m o) : cell (Value.get o "order_status") = some (.text (text o "order_status")) :=
  cell_of_asText (asText_of_known (by decide) he.status)

theorem Echo.type_cell (hd : Dispatched env row m) (he : Echo row m o) :
    ∃ s, Value.get o "order_type" = .text s ∧ m.lookup "order_type" = some (.text s) ∧ (env = .simulate → s = "NORMAL") := by
  obtain ⟨s, hs, hpaper⟩ := hd.type
  exact ⟨s, he.term (by decide) hs, hs, hpaper⟩

theorem Echo.instrument_cell (hd : Dispatched env row m) (he : Echo row m o) (hcombo : Real.combo row = false)
    {name : String} (hname : name ∈ instrument) :
    ∃ s, s ≠ "" ∧ Value.get o name = .text s ∧ m.lookup name = some (.text s) ∧ row.request.lookup name = some (.text s) := by
  obtain ⟨s, hne, hs, hr⟩ := hd.instrument hcombo name hname
  have hechoed : name ∈ echoed := by
    simp only [instrument, List.mem_cons, List.not_mem_nil, or_false] at hname
    rcases hname with rfl | rfl <;> decide
  exact ⟨s, hne, he.term hechoed hs, hs, hr⟩

/-- A row that echoes the placement has the cells that rows are compared in. -/
theorem Echo.cells (hd : Dispatched env row m) (he : Echo row m o) (hplace : Placement env row) :
    ∀ name ∈ rowCells env row, SameCell name o o := by
  have hself : ∀ {name : String} {c : Cell}, cell (Value.get o name) = some c → SameCell name o o :=
    fun hc => ⟨_, hc, hc⟩
  obtain ⟨type, htype, _⟩ := he.type_cell hd
  have htype' : SameCell "order_type" o o := hself (by rw [htype]; rfl)
  have hinstrument : Real.combo row = false → SameCell "code" o o ∧ SameCell "trd_side" o o := by
    intro hcombo
    obtain ⟨code, _, hcode, _⟩ := he.instrument_cell hd hcombo (by decide : "code" ∈ instrument)
    obtain ⟨side, _, hside, _⟩ := he.instrument_cell hd hcombo (by decide : "trd_side" ∈ instrument)
    exact ⟨hself (by rw [hcode]; rfl), hself (by rw [hside]; rfl)⟩
  cases env with
  | simulate =>
      obtain ⟨hcode, hside⟩ := hinstrument (combo_false hplace rfl)
      show ∀ name ∈ Paper.cells, _
      simp only [Paper.cells, List.forall_mem_cons, List.not_mem_nil, false_imp_iff, implies_true, and_true]
      exact ⟨hself he.status_cell, hcode, hside, htype'⟩
  | real =>
      show ∀ name ∈ Real.cells row, _
      unfold Real.cells
      cases hcombo : Real.combo row with
      | true =>
          simp only [if_true, List.forall_mem_cons, List.not_mem_nil, false_imp_iff, implies_true, and_true]
          exact ⟨hself he.status_cell, htype'⟩
      | false =>
          obtain ⟨hcode, hside⟩ := hinstrument hcombo
          simp only [Bool.false_eq_true, if_false, List.forall_mem_cons, List.not_mem_nil, false_imp_iff, implies_true,
            and_true]
          exact ⟨hself he.status_cell, htype', hcode, hside⟩

theorem Echo.legs_ok (hd : Dispatched env row m) (he : Echo row m o) (hcombo : Real.combo row = true) :
    ∃ v legs, m.lookup "combo_legs" = some v ∧ Real.legIdentities v = .ok legs ∧
      Real.legIdentities (Real.comboLegs o) = .ok legs := by
  obtain ⟨legs, built, hlegs, hbuilt, hplain⟩ := hd.legs hcombo
  obtain ⟨identities, hi⟩ := legIdentities_built hplain hbuilt
  exact ⟨.list legs, identities, hlegs, hi, by rw [he.legs _ hlegs]; exact hi⟩

theorem Echo.sameRow (hd : Dispatched env row m) (he : Echo row m o) (hplace : Placement env row) (hs : Shown env row o f) :
    SameRow (rowCells env row) (rowLegs env row) o o := by
  obtain ⟨_, hq, hp, hf, ha⟩ := fill_ok.mp hs.fill
  refine ⟨he.cells hd hplace, ?_, fun hlegs => ?_⟩
  · simp only [numbers, List.forall_mem_cons, List.not_mem_nil, false_imp_iff, implies_true, and_true]
    exact ⟨⟨_, _, hq, hq, rfl⟩, ⟨_, _, hp, hp, rfl⟩, ⟨_, _, hf, hf, rfl⟩, ⟨_, _, ha, ha, rfl⟩⟩
  · cases env with
    | simulate => cases hlegs
    | real =>
        obtain ⟨_, ls, _, _, hls⟩ := he.legs_ok hd hlegs
        exact ⟨ls, hls, hls⟩

theorem Echo.scope (hd : Dispatched env row m) (he : Echo row m o) (hplace : Placement env row) (hs : Shown env row o f) :
    inScope env row o f = .ok () := by
  obtain ⟨n, hpos, _, hqty⟩ := hs.qty
  have hqpos : ¬f.qty.value ≤ 0 := by
    rw [hqty]
    exact not_le.mpr (by exact_mod_cast hpos)
  have hden : f.qty.value.den = 1 := by
    rw [hqty]
    exact Rat.den_natCast n
  cases env with
  | simulate =>
      have hcombo := combo_false hplace rfl
      obtain ⟨code, _, hcode, hmcode, _⟩ := he.instrument_cell hd hcombo (by decide : "code" ∈ instrument)
      obtain ⟨side, _, hside, hmside, _⟩ := he.instrument_cell hd hcombo (by decide : "trd_side" ∈ instrument)
      obtain ⟨type, htype, _, hnormal⟩ := he.type_cell hd
      have hmarket := hd.market rfl
      have hsided := hd.side rfl
      simp only [text, Value.get_of_lookup hmcode, Value.get_of_lookup hmside, asText, Option.getD_some] at hmarket hsided
      refine both_ok.mpr ⟨refuseIf_ok.mpr ?_, refuseIf_ok.mpr ?_⟩
      · simp only [not_or, not_not]
        exact ⟨hs.known, hqpos, hden, not_le.mpr (hs.price rfl), not_lt.mpr hs.filled.1, not_lt.mpr hs.filled.2,
          not_lt.mpr (hs.average hcombo)⟩
      · simp only [text, hcode, hside, htype, asText, Option.getD_some, Option.some.injEq]
        rintro (hn | hn | hn)
        · exact hn hmarket
        · exact hn hsided
        · exact hn (congrArg some (hnormal rfl))
  | real =>
      refine both_ok.mpr ⟨refuseIf_ok.mpr ?_, refuseIf_ok.mpr ?_⟩
      · simp only [not_or, not_not]
        exact ⟨hs.known, hqpos, not_lt.mpr hs.filled.1, not_lt.mpr hs.filled.2,
          fun hn => absurd hn.2 (not_lt.mpr (hs.average hn.1))⟩
      · rintro ⟨hcombo, hnone⟩
        obtain ⟨code, hcne, hcode, _⟩ := he.instrument_cell hd hcombo (by decide : "code" ∈ instrument)
        obtain ⟨side, hsne, hside, _⟩ := he.instrument_cell hd hcombo (by decide : "trd_side" ∈ instrument)
        simp only [text, hcode, hside, asText, Option.getD_some] at hnone
        exact hnone.elim hcne hsne

theorem lookup_of_get {fields : Fields} {name : String} (h : (Value.get fields name).isNull = false) :
    fields.lookup name = some (Value.get fields name) := by
  unfold Value.get at h ⊢
  cases hl : fields.lookup name with
  | none =>
      rw [hl] at h
      cases h
  | some v => rfl

/-- A row that echoes the placement shows every further field that it supplies. -/
theorem Echo.evidenced (hd : Dispatched env row m) (he : Echo row m o) {orders : List Fields} (hall : ∀ x ∈ orders, x = o)
    {field : String × Bool} (hfield : field ∈ Real.optionalFields) : Real.evidenced row orders field = .ok () := by
  have hexpected : row.expected = m := by rw [Journaled.expected, hd.merged, Option.getD_some]
  have hechoed : field.1 ∈ echoed := List.mem_append_right _ (List.mem_map_of_mem hfield)
  unfold Real.evidenced
  rw [hexpected]
  cases hnull : (Value.get m field.1).isNull with
  | true => rfl
  | false =>
      have hshown : Value.get o field.1 = Value.get m field.1 := he.term hechoed (lookup_of_get hnull)
      have hsupplied := (hd.supplied field hfield).resolve_left (by simp [hnull])
      refine checkAll_ok.mpr (fun x hx => ?_)
      rw [hall x hx, Real.shows, hshown]
      refine both_ok.mpr ⟨refuseIf_ok.mpr (by simp [hnull]), ?_⟩
      cases hnumeric : field.2 with
      | true =>
          rw [hnumeric] at hsupplied
          obtain ⟨d, hnum⟩ := hsupplied
          exact bind_ok.mpr ⟨d, hnum, bind_ok.mpr ⟨d, hnum, refuseIf_ok.mpr (not_not.mpr rfl)⟩⟩
      | false =>
          rw [hnumeric] at hsupplied
          obtain ⟨s, hs⟩ := hsupplied
          refine refuseIf_ok.mpr ?_
          rw [hs]
          simp [cell]

theorem Echo.resolution_ok (hd : Dispatched env row m) (he : Echo row m o) (hplace : Placement env row)
    (hs : Shown env row o f) {orders : List Fields} (hall : ∀ x ∈ orders, x = o) :
    resolution env row o f orders = .ok (some .brokerConfirmed) := by
  have hexpected : row.expected = m := by rw [Journaled.expected, hd.merged, Option.getD_some]
  obtain ⟨_, hq, hp, _, _⟩ := fill_ok.mp hs.fill
  obtain ⟨n, _, hn, hqty⟩ := hd.qty
  obtain ⟨v, p, hprice, hpnum, _⟩ := hd.price
  have hgq : Value.get o "qty" = .number (.finite ⟨n, 0⟩) := he.term (by decide) hqty
  have hgp : Value.get o "price" = v := he.term (by decide) hprice
  have hqsame : number (.number (.finite ⟨n, 0⟩)) = .ok f.qty := hgq ▸ hq
  have hpsame : number v = .ok f.price := hgp ▸ hp
  have hself : ∀ x : ℚ, ¬x ≠ x := fun x => not_not.mpr rfl
  cases env with
  | simulate =>
      have hkind : row.kind = .place := hplace.resolve_right (fun hx => nomatch hx.1)
      have hcombo := combo_false hplace rfl
      obtain ⟨code, _, hcode, _, hrcode⟩ := he.instrument_cell hd hcombo (by decide : "code" ∈ instrument)
      obtain ⟨side, _, hside, _, hrside⟩ := he.instrument_cell hd hcombo (by decide : "trd_side" ∈ instrument)
      show Paper.resolution row o f = _
      rw [Paper.resolution, if_pos hkind, map_ok]
      refine ⟨(), ?_, rfl⟩
      unfold Paper.placementAgrees
      rw [hcode, hside, hexpected]
      refine bind_ok.mpr ⟨_, Value.item_ok.mpr hrcode, bind_ok.mpr ⟨(), refuseIf_ok.mpr (not_not.mpr rfl), ?_⟩⟩
      refine bind_ok.mpr ⟨_, Value.item_ok.mpr hrside, bind_ok.mpr ⟨(), refuseIf_ok.mpr (not_not.mpr rfl), ?_⟩⟩
      refine bind_ok.mpr ⟨_, Value.item_ok.mpr hqty, bind_ok.mpr ⟨_, hqsame, bind_ok.mpr ⟨(), refuseIf_ok.mpr (hself _), ?_⟩⟩⟩
      exact bind_ok.mpr ⟨_, Value.item_ok.mpr hprice, bind_ok.mpr ⟨_, hpsame, refuseIf_ok.mpr (hself _)⟩⟩
  | real =>
      obtain ⟨type, htype, hmtype, _⟩ := he.type_cell hd
      have hsupplied : checkAll (Real.evidenced row orders) Real.optionalFields = .ok () :=
        checkAll_ok.mpr (fun field hfield => he.evidenced hd hall hfield)
      show Real.resolution row o f orders = _
      rw [Real.resolution, if_pos hplace.kind, map_ok]
      refine ⟨(), ?_, rfl⟩
      unfold Real.placementAgrees
      rw [htype, hexpected]
      refine bind_ok.mpr ⟨_, Value.item_ok.mpr hqty, bind_ok.mpr ⟨_, hqsame, bind_ok.mpr ⟨(), refuseIf_ok.mpr (hself _), ?_⟩⟩⟩
      refine bind_ok.mpr ⟨_, Value.item_ok.mpr hprice, bind_ok.mpr ⟨_, hpsame, bind_ok.mpr ⟨(), refuseIf_ok.mpr (hself _), ?_⟩⟩⟩
      refine bind_ok.mpr ⟨_, Value.item_ok.mpr hmtype, bind_ok.mpr ⟨(), refuseIf_ok.mpr (not_not.mpr rfl), ?_⟩⟩
      cases hcombo : Real.combo row with
      | true =>
          obtain ⟨legs, ls, hlegs, hls, hols⟩ := he.legs_ok hd hcombo
          refine bind_ok.mpr ⟨ls, hols, bind_ok.mpr ⟨legs, Value.item_ok.mpr hlegs, bind_ok.mpr ⟨ls, hls, ?_⟩⟩⟩
          exact bind_ok.mpr ⟨(), refuseIf_ok.mpr (not_not.mpr rfl), hsupplied⟩
      | false =>
          obtain ⟨code, _, hcode, _, hrcode⟩ := he.instrument_cell hd hcombo (by decide : "code" ∈ instrument)
          obtain ⟨side, _, hside, _, hrside⟩ := he.instrument_cell hd hcombo (by decide : "trd_side" ∈ instrument)
          rw [hcode, hside]
          refine bind_ok.mpr ⟨_, Value.item_ok.mpr hrcode, bind_ok.mpr ⟨(), refuseIf_ok.mpr (not_not.mpr rfl), ?_⟩⟩
          refine bind_ok.mpr ⟨_, Value.item_ok.mpr hrside, bind_ok.mpr ⟨(), refuseIf_ok.mpr (not_not.mpr rfl), hsupplied⟩⟩

theorem positions_ok {account : String} (hquery : ∀ code, ∃ held, position env account query code = .ok held)
    (codes : List String) : ∃ held, positions env account query codes = .ok held := by
  induction codes with
  | nil => exact ⟨[], rfl⟩
  | cons code rest ih =>
      obtain ⟨held, hheld⟩ := hquery code
      obtain ⟨others, hothers⟩ := ih
      exact ⟨_, bind_ok.mpr ⟨held, hheld, bind_ok.mpr ⟨others, hothers, rfl⟩⟩⟩

/-- The server recognises its own order: rows that echo what was dispatched confirm the placement. -/
theorem own_order_confirmed (hplace : Placement env row) (hd : Dispatched env row m) (he : Echo row m o)
    (hquery : ∀ code, ∃ held, position env row.account query code = .ok held) (k : ℕ) :
    ∃ a, account env row (List.replicate (k + 1) o) query = .ok (some a) ∧ a.resolution = .brokerConfirmed := by
  have hall : ∀ x ∈ List.replicate (k + 1) o, x = o := fun x hx => List.eq_of_mem_replicate hx
  obtain ⟨f, hs⟩ := he.shown hd
  obtain ⟨id, hid, hrecorded⟩ := he.identity
  have hc : Consistent env row (List.replicate (k + 1) o) o f := by
    refine ⟨rfl, ⟨id, nofun, fun x hx => hall x hx ▸ hid⟩, fun x hx => ?_, fun recorded hr => ?_, hs.fill,
      he.scope hd hplace hs⟩
    · rw [hall x hx]
      refine ⟨fun tag htag => ?_, he.sameRow hd hplace hs⟩
      have hremark : asText (Value.get o "remark") = some tag := he.remark.trans htag
      exact ⟨.inr (.inr hremark), fun _ => hremark⟩
    · rw [hrecorded recorded hr]
      exact hid
  obtain ⟨n, _, hn, hqty⟩ := hs.qty
  obtain ⟨r, hr⟩ := remaining_ok hqty hn hs.filled.1 hs.filled.2
  rw [hc.account_eq, he.resolution_ok hd hplace hs hall]
  cases env with
  | simulate =>
      obtain ⟨held, hheld⟩ := hquery (text o "code")
      exact ⟨_, bind_ok.mpr ⟨_, rfl, bind_ok.mpr ⟨held, hheld, bind_ok.mpr ⟨r, hr, rfl⟩⟩⟩, rfl⟩
  | real =>
      have hexpected : row.expected = m := by rw [Journaled.expected, hd.merged, Option.getD_some]
      have hcodes : ∃ codes, Real.codes row o = .ok codes := by
        unfold Real.codes
        cases hcombo : Real.combo row with
        | true =>
            obtain ⟨legs, ls, hlegs, hls, _⟩ := he.legs_ok hd hcombo
            rw [hexpected]
            exact ⟨_, bind_ok.mpr ⟨legs, Value.item_ok.mpr hlegs, bind_ok.mpr ⟨ls, hls, rfl⟩⟩⟩
        | false => exact ⟨_, rfl⟩
      obtain ⟨codes, hcodes⟩ := hcodes
      obtain ⟨held, hheld⟩ := positions_ok hquery codes
      exact ⟨_, bind_ok.mpr ⟨_, rfl, bind_ok.mpr ⟨codes, hcodes, bind_ok.mpr ⟨held, hheld, bind_ok.mpr ⟨r, hr, rfl⟩⟩⟩⟩, rfl⟩

theorem own_order_matches (hplace : Placement env row) (hd : Dispatched env row m) (he : Echo row m o) (k : ℕ) :
    matchingOrders row (List.replicate (k + 1) o) = .ok (List.replicate (k + 1) o) := by
  have htarget : target row = .ok row.brokerOrderId := by
    unfold target
    rcases hplace with h | ⟨_, h⟩ <;> rw [h]
  rw [matchingOrders, htarget]
  refine congrArg Except.ok (List.filter_eq_self.mpr (fun x hx => ?_))
  obtain ⟨tag, htag⟩ := Option.ne_none_iff_exists'.mp hd.tag
  have hremark : asText (Value.get o "remark") = some tag := he.remark.trans htag
  rw [List.eq_of_mem_replicate hx, correlates, htag, Option.any_some, hremark, Bool.or_eq_true]
  exact .inr (decide_eq_true rfl)

/-- Accounting of a placement confirms only rows that agree with each other and with
the request, and it does confirm the rows that echo what was dispatched. -/
theorem placement_accounting (hplace : Placement env row) :
    (∀ orders query a, account env row orders query = .ok (some a) → Confirmed env row orders a) ∧
    ∀ m o query k, Dispatched env row m → Echo row m o →
      (∀ code, ∃ held, position env row.account query code = .ok held) →
        matchingOrders row (List.replicate (k + 1) o) = .ok (List.replicate (k + 1) o) ∧
        ∃ a, account env row (List.replicate (k + 1) o) query = .ok (some a) ∧ a.resolution = .brokerConfirmed :=
  ⟨fun _ _ _ h => placement_confirmed hplace h, fun _ _ _ k hd he hquery =>
    ⟨own_order_matches hplace hd he k, own_order_confirmed hplace hd he hquery k⟩⟩

def oneShare (code side : String) : Value :=
  .object [("code", .text code), ("trd_side", .text side), ("qty_ratio", .number (.finite ⟨1, 0⟩))]

def spreadLegs : Value := .list [oneShare "US.A" "BUY", oneShare "US.B" "SELL"]

def spreadTerms : Fields :=
  [("combo_legs", spreadLegs), ("qty", .number (.finite ⟨1, 0⟩)), ("price", .number (.finite ⟨1, 0⟩)),
    ("order_type", .text "NORMAL")]

/-- A package of two legs, placed once at a price of one. -/
def spreadRow : Journaled := ⟨.placeCombo, "7", some "mm1-tag", none, spreadTerms, some spreadTerms⟩

def spreadOrder (code side : String) : Fields :=
  [("order_id", .text "11"), ("order_status", .text "SUBMITTED"), ("code", .text code), ("trd_side", .text side),
    ("order_type", .text "NORMAL"), ("qty", .number (.finite ⟨1, 0⟩)), ("price", .number (.finite ⟨1, 0⟩)),
    ("dealt_qty", .number (.finite ⟨0, 0⟩)), ("dealt_avg_price", .number (.finite ⟨0, 0⟩)), ("remark", .text "mm1-tag"),
    ("combo_legs", spreadLegs)]

def untraded : PositionQuery := fun _ => .ok (.list [])

/-- The rows of a package need not agree in code and side: its legs have their own. -/
theorem package_rows_disagree :
    (account .real spreadRow [spreadOrder "US.A" "BUY", spreadOrder "US.B" "SELL"] untraded).toOption.join.map
        Accounted.resolution = some .brokerConfirmed ∧
      text (spreadOrder "US.A" "BUY") "code" ≠ text (spreadOrder "US.B" "SELL") "code" ∧
      text (spreadOrder "US.A" "BUY") "trd_side" ≠ text (spreadOrder "US.B" "SELL") "trd_side" := by
  decide +kernel

theorem spread_dispatched : Dispatched .real spreadRow spreadTerms where
  merged := rfl
  tag := nofun
  qty := ⟨1, by decide, by norm_num, rfl⟩
  price := ⟨_, _, rfl, number_natural (by norm_num : 1 < 10 ^ 4300), nofun⟩
  type := ⟨_, rfl, nofun⟩
  instrument := nofun
  market := nofun
  side := nofun
  supplied field hfield := by
    left
    revert field
    decide
  legs _ := by
    obtain ⟨built, hbuilt⟩ := ok_of_isSome (by decide +kernel : (OrderContract.buildComboLegs spreadLegs).toOption.isSome = true)
    refine ⟨[oneShare "US.A" "BUY", oneShare "US.B" "SELL"], built, rfl, hbuilt, ?_⟩
    simp only [List.forall_mem_cons, List.not_mem_nil, false_imp_iff, implies_true, and_true]
    have hone : number (.number (.finite ⟨1, 0⟩)) = .ok ⟨1, 0⟩ := number_natural (by norm_num : 1 < 10 ^ 4300)
    exact ⟨⟨_, _, _, _, rfl, rfl, rfl, hone⟩, ⟨_, _, _, _, rfl, rfl, rfl, hone⟩⟩

theorem spread_echo : Echo spreadRow spreadTerms (spreadOrder "US.A" "BUY") where
  identity := ⟨"11", rfl, nofun⟩
  remark := rfl
  status := by decide
  terms name hname v hv := by
    have hshown : ∀ n ∈ echoed, n = "qty" ∨ n = "price" ∨ n = "order_type" ∨ (spreadTerms.lookup n).isNone = true := by
      decide
    rcases hshown name hname with rfl | rfl | rfl | hnone
    · cases hv
      rfl
    · cases hv
      rfl
    · cases hv
      rfl
    · rw [Option.isNone_iff_eq_none.mp hnone] at hv
      cases hv
  legs v hv := by
    cases hv
    rfl
  filled := ⟨⟨1, 0⟩, ⟨0, 0⟩, by decide +kernel, by decide +kernel, by decide +kernel, by decide +kernel⟩
  average := ⟨⟨0, 0⟩, by decide +kernel, nofun⟩

theorem spread_confirmed : ∃ a,
    account .real spreadRow (List.replicate 2 (spreadOrder "US.A" "BUY")) untraded = .ok (some a) ∧
      Confirmed .real spreadRow (List.replicate 2 (spreadOrder "US.A" "BUY")) a := by
  have haccounting := placement_accounting (.inr ⟨rfl, rfl⟩ : Placement .real spreadRow)
  obtain ⟨_, a, ha, _⟩ := haccounting.2 _ _ untraded 1 spread_dispatched spread_echo (fun _ => ⟨_, rfl⟩)
  exact ⟨a, ha, haccounting.1 _ _ a ha⟩

end MoomooMcp.RecoveryEvidence
