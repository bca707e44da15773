import MoomooMcp.MutationAccounting
import MoomooMcp.Rounding

namespace MoomooMcp.RecoveryEvidence

open Accounting (checkAll refuseIf)
open ExecutionStore (Resolution)
open Checks

variable {env : Environment} {row : Journaled} {orders : List Fields} {final o : Fields} {f : Fill} {query : PositionQuery}

/-- The cells that name what is traded. -/
def instrument : List String := ["code", "trd_side"]

/-- A row shows a field that was asked for: a number in any notation, a text as it is. -/
def Evident (o : Fields) (field : String × Bool) (v : Value) : Prop :=
  if field.2 then Shows o field.1 v else ∃ c, cell (Value.get o field.1) = some c ∧ cell v = some c

/-- A row shows every further field that the request supplies. -/
def Supplied (row : Journaled) (o : Fields) : Prop :=
  ∀ field ∈ Real.optionalFields, (Value.get row.expected field.1).isNull = false →
    Evident o field (Value.get row.expected field.1)

/-- What a row of a confirmed placement has in common with the request. -/
structure AsRequested (env : Environment) (row : Journaled) (o : Fields) : Prop where
  terms : ∀ name ∈ terms, ∃ v, row.expected.lookup name = some v ∧ Shows o name v
  instrument : Real.combo row = false → ∀ name ∈ instrument, ∃ v, row.request.lookup name = some v ∧
    cell (Value.get o name) = cell v
  type : env = .real → ∃ v, row.expected.lookup "order_type" = some v ∧ cell (Value.get o "order_type") = cell v
  supplied : env = .real → Supplied row o
  legs : Real.combo row = true → ∃ v legs, row.expected.lookup "combo_legs" = some v ∧
    Real.legIdentities v = .ok legs ∧ Real.legIdentities (Real.comboLegs o) = .ok legs

theorem shows_ok {field : String × Bool} {v : Value} (h : Real.shows field.1 field.2 v o = .ok ()) : Evident o field v := by
  unfold Real.shows at h
  obtain ⟨_, _, h⟩ := bind_ok.mp h
  unfold Evident
  cases hnumeric : field.2 with
  | true =>
      rw [hnumeric] at h
      obtain ⟨d, hd, h⟩ := bind_ok.mp (show _ >>= _ = _ from h)
      obtain ⟨d', hd', h⟩ := bind_ok.mp h
      exact ⟨d, d', hd, hd', not_not.mp (refuseIf_ok.mp h)⟩
  | false =>
      rw [hnumeric] at h
      have hcell := refuseIf_ok.mp (show refuseIf _ _ = _ from h)
      rw [not_or, not_not] at hcell
      obtain ⟨c, hc⟩ := Option.ne_none_iff_exists'.mp hcell.1
      exact ⟨c, hc, hcell.2 ▸ hc⟩

theorem Paper.placementAgrees_ok (hfill : fill final = .ok f) (hkind : row.kind = .place)
    (h : Paper.placementAgrees row final f = .ok ()) : AsRequested .simulate row final := by
  obtain ⟨_, hqty, hprice, _, _⟩ := fill_ok.mp hfill
  unfold Paper.placementAgrees at h
  obtain ⟨code, hcode, h⟩ := bind_ok.mp h
  obtain ⟨_, hsame, h⟩ := bind_ok.mp h
  obtain ⟨side, hside, h⟩ := bind_ok.mp h
  obtain ⟨_, hsame', h⟩ := bind_ok.mp h
  obtain ⟨v, hv, h⟩ := bind_ok.mp h
  obtain ⟨q, hq, h⟩ := bind_ok.mp h
  obtain ⟨_, hqsame, h⟩ := bind_ok.mp h
  obtain ⟨w, hw, h⟩ := bind_ok.mp h
  obtain ⟨p, hp, h⟩ := bind_ok.mp h
  constructor
  · simp only [RecoveryEvidence.terms, List.forall_mem_cons, List.not_mem_nil, false_imp_iff, implies_true, and_true]
    exact ⟨⟨v, Value.item_ok.mp hv, _, _, hqty, hq, not_not.mp (refuseIf_ok.mp hqsame)⟩,
      w, Value.item_ok.mp hw, _, _, hprice, hp, not_not.mp (refuseIf_ok.mp h)⟩
  · intro _
    simp only [RecoveryEvidence.instrument, List.forall_mem_cons, List.not_mem_nil, false_imp_iff, implies_true, and_true]
    exact ⟨⟨code, Value.item_ok.mp hcode, not_not.mp (refuseIf_ok.mp hsame)⟩,
      side, Value.item_ok.mp hside, not_not.mp (refuseIf_ok.mp hsame')⟩
  · intro h
    cases h
  · intro h
    cases h
  · intro hcombo
    rw [Real.combo, hkind] at hcombo
    cases hcombo

theorem Real.placementAgrees_ok (hfill : fill final = .ok f) (hmem : final ∈ orders)
    (h : Real.placementAgrees row final f orders = .ok ()) :
    AsRequested .real row final ∧ ∀ o ∈ orders, Supplied row o := by
  obtain ⟨_, hqty, hprice, _, _⟩ := fill_ok.mp hfill
  unfold Real.placementAgrees at h
  obtain ⟨v, hv, h⟩ := bind_ok.mp h
  obtain ⟨q, hq, h⟩ := bind_ok.mp h
  obtain ⟨_, hqsame, h⟩ := bind_ok.mp h
  obtain ⟨w, hw, h⟩ := bind_ok.mp h
  obtain ⟨p, hp, h⟩ := bind_ok.mp h
  obtain ⟨_, hpsame, h⟩ := bind_ok.mp h
  obtain ⟨type, htype, h⟩ := bind_ok.mp h
  obtain ⟨_, htsame, h⟩ := bind_ok.mp h
  have hterms : ∀ name ∈ RecoveryEvidence.terms, ∃ v, row.expected.lookup name = some v ∧ Shows final name v := by
    simp only [RecoveryEvidence.terms, List.forall_mem_cons, List.not_mem_nil, false_imp_iff, implies_true, and_true]
    exact ⟨⟨v, Value.item_ok.mp hv, _, _, hqty, hq, not_not.mp (refuseIf_ok.mp hqsame)⟩,
      w, Value.item_ok.mp hw, _, _, hprice, hp, not_not.mp (refuseIf_ok.mp hpsame)⟩
  have htype' : ∃ v, row.expected.lookup "order_type" = some v ∧ cell (Value.get final "order_type") = cell v :=
    ⟨type, Value.item_ok.mp htype, not_not.mp (refuseIf_ok.mp htsame)⟩
  have hsupplied : checkAll (Real.evidenced row orders) Real.optionalFields = .ok () → ∀ o ∈ orders, Supplied row o := by
    intro hall o ho field hfield hnull
    have hone := checkAll_ok.mp hall field hfield
    rw [Real.evidenced, if_neg (by simp [hnull])] at hone
    exact shows_ok (checkAll_ok.mp hone o ho)
  cases hcombo : Real.combo row with
  | true =>
      rw [hcombo] at h
      obtain ⟨left, hleft, h⟩ := bind_ok.mp (show _ >>= _ = _ from h)
      obtain ⟨legs, hlegs, h⟩ := bind_ok.mp h
      obtain ⟨right, hright, h⟩ := bind_ok.mp h
      obtain ⟨_, hsame, h⟩ := bind_ok.mp h
      refine ⟨⟨hterms, fun hn => absurd (hcombo.symm.trans hn) (by decide), fun _ => htype',
        fun _ => hsupplied h final hmem, fun _ => ?_⟩, hsupplied h⟩
      have hlr : left = right := not_not.mp (refuseIf_ok.mp hsame)
      exact ⟨legs, right, Value.item_ok.mp hlegs, hright, hlr ▸ hleft⟩
  | false =>
      rw [hcombo] at h
      obtain ⟨code, hcode, h⟩ := bind_ok.mp (show _ >>= _ = _ from h)
      obtain ⟨_, hsame, h⟩ := bind_ok.mp h
      obtain ⟨side, hside, h⟩ := bind_ok.mp h
      obtain ⟨_, hsame', h⟩ := bind_ok.mp h
      refine ⟨⟨hterms, fun _ => ?_, fun _ => htype', fun _ => hsupplied h final hmem,
        fun hn => absurd (hcombo.symm.trans hn) (by decide)⟩, hsupplied h⟩
      simp only [RecoveryEvidence.instrument, List.forall_mem_cons, List.not_mem_nil, false_imp_iff, implies_true, and_true]
      exact ⟨⟨code, Value.item_ok.mp hcode, not_not.mp (refuseIf_ok.mp hsame)⟩,
        side, Value.item_ok.mp hside, not_not.mp (refuseIf_ok.mp hsame')⟩

/-- A placement, of the kinds that the environment journals. -/
def Placement (env : Environment) (row : Journaled) : Prop :=
  row.kind = .place ∨ env = .real ∧ row.kind = .placeCombo

theorem Placement.kind (h : Placement env row) : placement row.kind = true := by
  rcases h with h | ⟨_, h⟩ <;> simp [h, placement]

theorem instrument_cells (hplace : Placement env row) (hcombo : Real.combo row = false) :
    ∀ name ∈ instrument, name ∈ rowCells env row := by
  cases env with
  | simulate =>
      show ∀ name ∈ instrument, name ∈ Paper.cells
      decide
  | real =>
      show ∀ name ∈ instrument, name ∈ Real.cells row
      rw [Real.cells, hcombo]
      decide

theorem type_mem (env : Environment) (row : Journaled) : "order_type" ∈ rowCells env row := by
  cases env with
  | simulate =>
      show _ ∈ Paper.cells
      decide
  | real =>
      show _ ∈ Real.cells row
      unfold Real.cells
      split <;> decide

/-- What holds of one row holds of every row that agrees with it. -/
theorem AsRequested.spread (h : AsRequested env row final) (hplace : Placement env row)
    (hc : Consistent env row orders final f) (ho : o ∈ orders) (hsupplied : env = .real → Supplied row o) :
    AsRequested env row o := by
  obtain ⟨_, hrow⟩ := hc.rows o ho
  refine ⟨fun name hname => ?_, fun hcombo name hname => ?_, fun henv => ?_, hsupplied, fun hcombo => ?_⟩
  · obtain ⟨v, hv, hs⟩ := h.terms name hname
    exact ⟨v, hv, hc.shows (terms_numbers hname) hs o ho⟩
  · obtain ⟨v, hv, hs⟩ := h.instrument hcombo name hname
    exact ⟨v, hv, (hrow.cells name (instrument_cells hplace hcombo name hname)).cell_eq.symm.trans hs⟩
  · obtain ⟨v, hv, hs⟩ := h.type henv
    exact ⟨v, hv, (hrow.cells _ (type_mem env row)).cell_eq.symm.trans hs⟩
  · obtain ⟨v, ls, hv, hls, hfinal⟩ := h.legs hcombo
    have hreal : env = .real := by
      rcases hplace with hp | ⟨he, _⟩
      · rw [Real.combo, hp] at hcombo
        cases hcombo
      · exact he
    subst hreal
    obtain ⟨ms, hms, hms'⟩ := hrow.legs hcombo
    cases hfinal.symm.trans hms
    exact ⟨v, ls, hv, hls, hms'⟩

/-- The number can be written with the digits that arithmetic keeps. -/
def Fits (q : ℚ) : Prop := ∃ d : Decimal, d.value = q ∧ Decimal.digits d.coefficient.natAbs ≤ precision

/-- What a confirmation of a placement says of the rows. -/
structure Confirmed (env : Environment) (row : Journaled) (orders : List Fields) (a : Accounted) : Prop where
  resolution : a.resolution = .brokerConfirmed
  identity : ∃ id, OneOrder orders id ∧ ∀ recorded ∈ row.brokerOrderId, recorded = id
  agree : ∀ o ∈ orders, ∀ o' ∈ orders, SameRow (rowCells env row) (rowLegs env row) o o'
  remark : ∀ o ∈ orders, RemarkFits row o
  requested : ∀ o ∈ orders, AsRequested env row o
  known : ∀ o ∈ orders, text o "order_status" ∈ terminalBroker ++ activeBroker
  filled : ∀ o ∈ orders, ∀ qty filled, number (Value.get o "qty") = .ok qty → number (Value.get o "dealt_qty") = .ok filled →
    0 ≤ filled.value ∧ filled.value ≤ qty.value
  terminal : ∀ o ∈ orders, text o "order_status" ∈ terminalBroker → a.facts.remainingExecutableQuantity.value = 0
  active : ∀ o ∈ orders, text o "order_status" ∉ terminalBroker → ∀ qty filled, number (Value.get o "qty") = .ok qty →
    number (Value.get o "dealt_qty") = .ok filled → Fits (qty.value - filled.value) →
      a.facts.remainingExecutableQuantity.value = qty.value - filled.value

theorem minus_value {a b r : Decimal} (h : minus a b = .ok r) (hfits : Fits (a.value - b.value)) :
    r.value = a.value - b.value := by
  unfold minus plus at h
  cases hadd : Decimal.add precision a { b with coefficient := -b.coefficient } with
  | none =>
      rw [hadd] at h
      cases h
  | some s =>
      rw [hadd] at h
      cases h
      rw [Decimal.value_add (by decide) hadd, Decimal.value_neg, ← sub_eq_add_neg]
      exact (Decimal.roundTo_eq_self (by decide)).mpr hfits

/-- The numbers of every row are the numbers of the fill. -/
theorem Consistent.fills (hc : Consistent env row orders final f) {o : Fields} (ho : o ∈ orders) {qty filled : Decimal}
    (hq : number (Value.get o "qty") = .ok qty) (hd : number (Value.get o "dealt_qty") = .ok filled) :
    qty.value = f.qty.value ∧ filled.value = f.filled.value := by
  obtain ⟨_, hrow⟩ := hc.rows o ho
  obtain ⟨_, hfq, _, hfd, _⟩ := fill_ok.mp hc.fill
  obtain ⟨q, q', hq₁, hq₂, hqv⟩ := hrow.numbers "qty" (by decide)
  obtain ⟨d, d', hd₁, hd₂, hdv⟩ := hrow.numbers "dealt_qty" (by decide)
  cases hfq.symm.trans hq₁
  cases hq.symm.trans hq₂
  cases hfd.symm.trans hd₁
  cases hd.symm.trans hd₂
  exact ⟨hqv.symm, hdv.symm⟩

/-- The scope bounds the fill by the quantity, for a status that is known. -/
theorem Consistent.bounds (hc : Consistent env row orders final f) :
    f.status ∈ terminalBroker ++ activeBroker ∧ 0 ≤ f.filled.value ∧ f.filled.value ≤ f.qty.value := by
  cases env with
  | simulate =>
      have hs := refuseIf_ok.mp (both_ok.mp hc.scope).1
      simp only [not_or, not_not, not_lt, not_le] at hs
      exact ⟨hs.1, hs.2.2.2.2.1, hs.2.2.2.2.2.1⟩
  | real =>
      have hs := refuseIf_ok.mp (both_ok.mp hc.scope).1
      simp only [not_or, not_not, not_lt, not_le] at hs
      exact ⟨hs.1, hs.2.2.1, hs.2.2.2.1⟩

theorem placement_resolution (hplace : Placement env row) (hc : Consistent env row orders final f) {res : Option Resolution}
    (h : resolution env row final f orders = .ok res) :
    res = some .brokerConfirmed ∧ ∀ o ∈ orders, AsRequested env row o := by
  have hmem : final ∈ orders := List.mem_of_mem_head? hc.head
  cases env with
  | simulate =>
      have hkind : row.kind = .place := hplace.resolve_right (fun hn => by cases hn.1)
      have h : Paper.resolution row final f = .ok res := h
      rw [Paper.resolution, if_pos hkind] at h
      obtain ⟨_, hagrees, hres⟩ := map_ok.mp h
      have hfinal := Paper.placementAgrees_ok hc.fill hkind hagrees
      exact ⟨hres.symm, fun o ho => hfinal.spread hplace hc ho (fun h => by cases h)⟩
  | real =>
      have h : Real.resolution row final f orders = .ok res := h
      rw [Real.resolution, if_pos hplace.kind] at h
      obtain ⟨_, hagrees, hres⟩ := map_ok.mp h
      obtain ⟨hfinal, hsupplied⟩ := Real.placementAgrees_ok hc.fill hmem hagrees
      exact ⟨hres.symm, fun o ho => hfinal.spread hplace hc ho (fun _ => hsupplied o ho)⟩

theorem placement_confirmed {a : Accounted} (hplace : Placement env row)
    (h : account env row orders query = .ok (some a)) : Confirmed env row orders a := by
  obtain ⟨final, f, hc, res, hres, hreport⟩ := account_ok.mp h
  obtain ⟨hconfirmed, hrequested⟩ := placement_resolution hplace hc hres
  obtain ⟨hresolved, hr⟩ := report_some hreport
  have hstatus := hc.status
  obtain ⟨hknown, hpos, hle⟩ := hc.bounds
  obtain ⟨id, hid⟩ := hc.identity
  have hmem : final ∈ orders := List.mem_of_mem_head? hc.head
  have hrem := hr.remaining
  constructor
  · exact Option.some.inj (hresolved.symm.trans hconfirmed)
  · exact ⟨id, hid, fun recorded hrec => Option.some.inj ((hc.recorded recorded hrec).symm.trans (hid.2 final hmem))⟩
  · exact fun o ho o' ho' => (hc.rows o ho).2.symm.trans (hc.rows o' ho').2
  · exact fun o ho => (hc.rows o ho).1
  · exact hrequested
  · exact fun o ho => hstatus o ho ▸ hknown
  · intro o ho qty filled hq hd
    obtain ⟨hqv, hdv⟩ := hc.fills ho hq hd
    rw [hqv, hdv]
    exact ⟨hpos, hle⟩
  · intro o ho hterminal
    rw [Fill.remaining, if_pos (hstatus o ho ▸ hterminal)] at hrem
    rw [← Except.ok.inj hrem]
    exact Decimal.value_eq_zero.mpr rfl
  · intro o ho hactive qty filled hq hd hfits
    obtain ⟨hqv, hdv⟩ := hc.fills ho hq hd
    rw [Fill.remaining, if_neg (hstatus o ho ▸ hactive)] at hrem
    rw [hqv, hdv] at hfits ⊢
    exact minus_value hrem hfits

end MoomooMcp.RecoveryEvidence
