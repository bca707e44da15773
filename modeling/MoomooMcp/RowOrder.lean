import MoomooMcp.EvidenceRows
import MoomooMcp.Rounding

namespace MoomooMcp.RecoveryEvidence

open Accounting (checkAll refuseIf)
open Checks

/-- The same facts, each quantity in the notation of one row or another. -/
structure SameFacts (f g : Facts) : Prop where
  code : f.code = g.code
  accId : f.accId = g.accId
  trdEnv : f.trdEnv = g.trdEnv
  brokerStatus : f.brokerStatus = g.brokerStatus
  filledQuantity : f.filledQuantity.value = g.filledQuantity.value
  averageFillPrice : f.averageFillPrice.value = g.averageFillPrice.value
  remainingExecutableQuantity : f.remainingExecutableQuantity.value = g.remainingExecutableQuantity.value
  currentPositions : f.currentPositions = g.currentPositions
  mutationSuccessProven : f.mutationSuccessProven = g.mutationSuccessProven

structure SameAccount (a b : Accounted) : Prop where
  resolution : a.resolution = b.resolution
  receipt : asText (Value.get a.receipt "order_id") = asText (Value.get b.receipt "order_id")
  facts : SameFacts a.facts b.facts

structure SameFill (f g : Fill) : Prop where
  status : f.status = g.status
  qty : f.qty.value = g.qty.value
  price : f.price.value = g.price.value
  filled : f.filled.value = g.filled.value
  average : f.average.value = g.average.value

variable {row : Journaled} {o o' final final' : Fields} {name : String} {names : List String} {legs : Bool}
  {orders orders' : List Fields} {f g : Fill}

theorem SameNumber.similar (h : SameNumber name o o') :
    Similar (fun d d' : Decimal => d.value = d'.value) (number (Value.get o name)) (number (Value.get o' name)) := by
  obtain ⟨d, d', hd, hd', hv⟩ := h
  rw [hd, hd']
  exact hv

theorem minus_similar {a b a' b' : Decimal} (ha : a.value = a'.value) (hb : b.value = b'.value) :
    Similar (fun d d' : Decimal => d.value = d'.value) (minus a b) (minus a' b') := by
  have hb' : ({ b with coefficient := -b.coefficient } : Decimal).value =
      ({ b' with coefficient := -b'.coefficient } : Decimal).value := by rw [Decimal.value_neg, Decimal.value_neg, hb]
  have hadd := Decimal.add_congr (by decide : 0 < precision) ha hb'
  unfold minus plus
  cases h : Decimal.add precision a { b with coefficient := -b.coefficient } with
  | none =>
      rw [h, Option.map_none] at hadd
      rw [Option.map_eq_none_iff.mp hadd.symm]
      trivial
  | some r =>
      rw [h, Option.map_some] at hadd
      obtain ⟨r', hr', hv⟩ := Option.map_eq_some_iff.mp hadd.symm
      rw [hr']
      exact hv.symm

theorem Fill.remaining_similar (h : SameFill f g) :
    Similar (fun d d' : Decimal => d.value = d'.value) f.remaining g.remaining := by
  unfold Fill.remaining
  rw [h.status]
  split
  · exact rfl
  · exact minus_similar h.qty h.filled

theorem fill_similar (hstatus : SameCell "order_status" final final')
    (h : ∀ name ∈ numbers, SameNumber name final final') : Similar SameFill (fill final) (fill final') := by
  have hnum : ∀ name ∈ numbers, Similar (fun d d' : Decimal => d.value = d'.value) (number (Value.get final name))
      (number (Value.get final' name)) := fun name hn => (h name hn).similar
  unfold fill
  refine (hnum "qty" (by decide)).bind (fun q q' _ _ hq => ?_)
  refine (hnum "price" (by decide)).bind (fun p p' _ _ hp => ?_)
  refine (hnum "dealt_qty" (by decide)).bind (fun d d' _ _ hd => ?_)
  refine (hnum "dealt_avg_price" (by decide)).bind (fun a a' _ _ ha => ?_)
  exact ⟨hstatus.text_eq, hq, hp, hd, ha⟩

/-- Rows that agree with one of them agree with any other of them. -/
theorem agreeing_rows (hmem : ∀ o, o ∈ orders ↔ o ∈ orders') (hfinal' : final' ∈ orders')
    (h : ∀ o ∈ orders, RemarkFits row o ∧ SameRow names legs final o) :
    ∀ o ∈ orders', RemarkFits row o ∧ SameRow names legs final' o := by
  intro o ho
  obtain ⟨hr, hs⟩ := h o ((hmem o).mpr ho)
  exact ⟨hr, (h final' ((hmem final').mpr hfinal')).2.symm.trans hs⟩

theorem sameOrder_similar (hmem : ∀ o, o ∈ orders ↔ o ∈ orders') :
    Similar (fun final final' => (final ∈ orders ∧ final' ∈ orders') ∧
      asText (Value.get final "order_id") = asText (Value.get final' "order_id"))
      (sameOrder orders) (sameOrder orders') := by
  have hone : ∀ {os os' : List Fields} {id : String}, (∀ o, o ∈ os ↔ o ∈ os') → OneOrder os id → OneOrder os' id := by
    intro os os' id hm h
    obtain ⟨o, rest, rfl⟩ := List.exists_cons_of_ne_nil h.1
    exact ⟨List.ne_nil_of_mem ((hm o).mp List.mem_cons_self), fun o' ho' => h.2 o' ((hm o').mpr ho')⟩
  have hok : ∀ {os : List Fields}, (∃ final, sameOrder os = .ok final) ↔ ∃ id, OneOrder os id := by
    intro os
    constructor
    · rintro ⟨final, h⟩
      exact (sameOrder_ok.mp h).2
    · rintro ⟨id, h⟩
      obtain ⟨o, rest, rfl⟩ := List.exists_cons_of_ne_nil h.1
      exact ⟨o, sameOrder_ok.mpr ⟨rfl, id, h⟩⟩
  refine Similar.of_ok ?_ (fun final final' h h' => ?_)
  · rw [hok, hok]
    exact ⟨fun ⟨id, h⟩ => ⟨id, hone hmem h⟩, fun ⟨id, h⟩ => ⟨id, hone (fun o => (hmem o).symm) h⟩⟩
  · obtain ⟨hhead, id, hid⟩ := sameOrder_ok.mp h
    obtain ⟨hhead', _⟩ := sameOrder_ok.mp h'
    have hin : final ∈ orders := List.mem_of_mem_head? hhead
    have hin' : final' ∈ orders' := List.mem_of_mem_head? hhead'
    exact ⟨⟨hin, hin'⟩, (hid.2 final hin).trans (hid.2 final' ((hmem final').mpr hin')).symm⟩

theorem recordedIdentity_eq (hid : asText (Value.get final "order_id") = asText (Value.get final' "order_id")) :
    recordedIdentity row final = recordedIdentity row final' := by
  rw [recordedIdentity, recordedIdentity, hid]

theorem accounted_similar (env : Environment) (hid : asText (Value.get final "order_id") = asText (Value.get final' "order_id"))
    (hfill : SameFill f g) (code : Option String) (held : List (String × Decimal)) (resolution : ExecutionStore.Resolution) :
    Similar (Option.Rel SameAccount) (accounted env row final f code held resolution)
      (accounted env row final' g code held resolution) := by
  unfold accounted
  refine (Fill.remaining_similar hfill).bind (fun r r' _ _ hr => ?_)
  exact .some ⟨rfl, hid, rfl, rfl, rfl, hfill.status, hfill.filled, hfill.average, hr, rfl, rfl⟩

namespace Paper

theorem inScope_similar (hrow : SameRow Paper.cells false final final') (hfill : SameFill f g) :
    Similar (fun _ _ => True) (inScope final f) (inScope final' g) := by
  have hcell : ∀ name ∈ Paper.cells, SameCell name final final' := hrow.cells
  refine Similar.of_eq (fun _ => trivial) ?_
  unfold inScope
  rw [hfill.status, hfill.qty, hfill.price, hfill.filled, hfill.average, (hcell "code" (by decide)).text_eq,
    (hcell "trd_side" (by decide)).asText_eq, (hcell "order_type" (by decide)).asText_eq]

theorem resolution_eq (hrow : SameRow Paper.cells false final final') (hfill : SameFill f g) :
    resolution row final f = resolution row final' g := by
  have hcell : ∀ name ∈ Paper.cells, SameCell name final final' := hrow.cells
  unfold resolution placementAgrees asked
  rw [hfill.status, hfill.qty, hfill.price, (hcell "code" (by decide)).cell_eq, (hcell "trd_side" (by decide)).cell_eq]

theorem report_similar (hrow : SameRow Paper.cells false final final')
    (hid : asText (Value.get final "order_id") = asText (Value.get final' "order_id")) (hfill : SameFill f g)
    (query : PositionQuery) (r : Option ExecutionStore.Resolution) :
    Similar (Option.Rel SameAccount) (report row final f query r) (report row final' g query r) := by
  have hcode : text final "code" = text final' "code" := (hrow.cells "code" (by decide)).text_eq
  unfold report
  cases r with
  | none => exact .none
  | some resolution =>
      rw [hcode]
      exact Similar.same (fun held _ => accounted_similar .simulate hid hfill _ _ resolution)

theorem conclude_similar (hrow : SameRow Paper.cells false final final')
    (hid : asText (Value.get final "order_id") = asText (Value.get final' "order_id")) (query : PositionQuery) :
    Similar (Option.Rel SameAccount) (conclude row final query) (conclude row final' query) := by
  unfold conclude
  rw [recordedIdentity_eq hid]
  refine Similar.same (fun _ _ => ?_)
  refine (fill_similar (hrow.cells "order_status" (by decide)) hrow.numbers).bind (fun f g _ _ hfill => ?_)
  refine (inScope_similar hrow hfill).bind (fun _ _ _ _ _ => ?_)
  rw [resolution_eq hrow hfill]
  exact Similar.same (fun r _ => report_similar hrow hid hfill query r)

theorem account_similar (hmem : ∀ o, o ∈ orders ↔ o ∈ orders') (row : Journaled) (query : PositionQuery) :
    Similar (Option.Rel SameAccount) (account row orders query) (account row orders' query) := by
  unfold account
  refine (sameOrder_similar hmem).bind (fun final final' _ _ hfinal => ?_)
  have hchecks : checkAll (agrees row final) orders = .ok () ↔ checkAll (agrees row final') orders' = .ok () := by
    simp only [checkAll_ok, agrees_ok]
    exact ⟨agreeing_rows hmem hfinal.1.2, agreeing_rows (fun o => (hmem o).symm) hfinal.1.1⟩
  refine (Similar.checks hchecks).bind (fun _ _ hpass _ _ => ?_)
  have hrows := checkAll_ok.mp hpass final' ((hmem final').mpr hfinal.1.2)
  exact conclude_similar (agrees_ok.mp hrows).2 hfinal.2 query

end Paper

namespace Real

theorem cells_status (row : Journaled) : "order_status" ∈ Real.cells row ∧ "order_type" ∈ Real.cells row := by
  unfold Real.cells
  split <;> decide

theorem cells_instrument (h : combo row = false) : "code" ∈ Real.cells row ∧ "trd_side" ∈ Real.cells row := by
  rw [Real.cells, h]
  decide

theorem inScope_similar (hrow : SameRow (Real.cells row) (combo row) final final') (hfill : SameFill f g) :
    Similar (fun _ _ => True) (inScope row final f) (inScope row final' g) := by
  have hcell : ∀ name ∈ Real.cells row, SameCell name final final' := hrow.cells
  refine Similar.of_eq (fun _ => trivial) ?_
  unfold inScope
  rw [hfill.status, hfill.qty, hfill.filled, hfill.average]
  cases hcombo : combo row with
  | true => simp
  | false =>
      rw [(hcell "code" (cells_instrument hcombo).1).text_eq, (hcell "trd_side" (cells_instrument hcombo).2).text_eq]

theorem evidenced_ok (hmem : ∀ o, o ∈ orders ↔ o ∈ orders') (field : String × Bool)
    (h : evidenced row orders field = .ok ()) : evidenced row orders' field = .ok () := by
  unfold evidenced at h ⊢
  split
  · rfl
  · next hnull =>
      rw [if_neg hnull] at h
      exact checkAll_ok.mpr (fun o ho => checkAll_ok.mp h o ((hmem o).mpr ho))

theorem placementAgrees_similar (hmem : ∀ o, o ∈ orders ↔ o ∈ orders')
    (hrow : SameRow (Real.cells row) (combo row) final final') (hfill : SameFill f g) :
    Similar (fun _ _ => True) (placementAgrees row final f orders) (placementAgrees row final' g orders') := by
  have hcell : ∀ name ∈ Real.cells row, SameCell name final final' := hrow.cells
  have hfields : checkAll (evidenced row orders) optionalFields = .ok () ↔
      checkAll (evidenced row orders') optionalFields = .ok () := by
    simp only [checkAll_ok]
    exact ⟨fun h field hf => evidenced_ok hmem field (h field hf),
      fun h field hf => evidenced_ok (fun o => (hmem o).symm) field (h field hf)⟩
  unfold placementAgrees
  rw [hfill.qty, hfill.price, (hcell "order_type" (cells_status row).2).cell_eq]
  refine Similar.same (fun _ _ => Similar.same (fun _ _ => Similar.same (fun _ _ => ?_)))
  refine Similar.same (fun _ _ => Similar.same (fun _ _ => Similar.same (fun _ _ => ?_)))
  refine Similar.same (fun _ _ => Similar.same (fun _ _ => ?_))
  cases hcombo : combo row with
  | true =>
      obtain ⟨ls, hls, hls'⟩ := hrow.legs hcombo
      rw [hls, hls']
      refine Similar.same (fun _ _ => Similar.same (fun _ _ => ?_))
      exact Similar.same (fun _ _ => Similar.same (fun _ _ => Similar.checks hfields))
  | false =>
      rw [(hcell "code" (cells_instrument hcombo).1).cell_eq, (hcell "trd_side" (cells_instrument hcombo).2).cell_eq]
      refine Similar.same (fun _ _ => Similar.same (fun _ _ => ?_))
      exact Similar.same (fun _ _ => Similar.same (fun _ _ => Similar.checks hfields))

theorem sameTerms_eq (h : ∀ name ∈ numbers, SameNumber name final final') {asked : List String}
    (hasked : asked ⊆ numbers) : Similar (fun b b' => b = b') (sameTerms row final asked) (sameTerms row final' asked) := by
  induction asked with
  | nil => exact rfl
  | cons name rest ih =>
      have hrest := ih (fun x hx => hasked (List.mem_cons_of_mem _ hx))
      unfold sameTerms
      split
      · exact hrest
      · refine Similar.same (fun left _ => ?_)
        refine (h name (hasked List.mem_cons_self)).similar.bind (fun d d' _ _ hd => ?_)
        rw [hd]
        split
        · exact rfl
        · exact hrest

theorem asked_similar (h : ∀ name ∈ numbers, SameNumber name final final') (hstatus : f.status = g.status) :
    Similar (fun b b' => b = b') (asked row final f) (asked row final' g) := by
  have hterms : Similar (fun b b' => b = b') (sameTerms row final ["qty", "price"]) _ := sameTerms_eq h (by decide)
  unfold asked
  rw [hstatus]
  by_cases hcancel : row.kind = .cancel
  · simp only [if_pos hcancel]
    rfl
  by_cases hdisable : mutation row = "DISABLE"
  · simp only [if_neg hcancel, if_pos hdisable]
    rfl
  by_cases hterm : mutation row = "NORMAL" ∨ mutation row = "ENABLE"
  · by_cases hdisabled : mutation row = "ENABLE" ∧ g.status = "DISABLED"
    · simp only [if_neg hcancel, if_neg hdisable, if_pos hterm, if_pos hdisabled]
      rfl
    · simp only [if_neg hcancel, if_neg hdisable, if_pos hterm, if_neg hdisabled]
      exact hterms
  · simp only [if_neg hcancel, if_neg hdisable, if_neg hterm]
    rfl

theorem resolution_similar (hmem : ∀ o, o ∈ orders ↔ o ∈ orders')
    (hrow : SameRow (Real.cells row) (combo row) final final') (hfill : SameFill f g) :
    Similar (fun r r' => r = r') (resolution row final f orders) (resolution row final' g orders') := by
  unfold resolution
  rw [hfill.status]
  split
  · exact (placementAgrees_similar hmem hrow hfill).map (fun _ _ _ => rfl)
  · split
    · exact rfl
    · refine (asked_similar hrow.numbers hfill.status).map (fun b b' hb => ?_)
      rw [hb]

theorem report_similar (hrow : SameRow (Real.cells row) (combo row) final final')
    (hid : asText (Value.get final "order_id") = asText (Value.get final' "order_id")) (hfill : SameFill f g)
    (query : PositionQuery) (r : Option ExecutionStore.Resolution) :
    Similar (Option.Rel SameAccount) (report row final f query r) (report row final' g query r) := by
  have hcode : combo row = false → text final "code" = text final' "code" :=
    fun hcombo => (hrow.cells "code" (cells_instrument hcombo).1).text_eq
  have hcodes : codes row final = codes row final' := by
    unfold codes
    cases hcombo : combo row with
    | true => rfl
    | false => rw [hcode hcombo]
  have hname : (if combo row then none else some (text final "code")) =
      if combo row then none else some (text final' "code") := by
    cases hcombo : combo row with
    | true => rfl
    | false => rw [hcode hcombo]
  unfold report
  cases r with
  | none => exact .none
  | some resolution =>
      dsimp only
      rw [hcodes, hname]
      exact Similar.same (fun _ _ => Similar.same (fun _ _ => accounted_similar .real hid hfill _ _ resolution))

theorem conclude_similar (hmem : ∀ o, o ∈ orders ↔ o ∈ orders')
    (hrow : SameRow (Real.cells row) (combo row) final final')
    (hid : asText (Value.get final "order_id") = asText (Value.get final' "order_id")) (query : PositionQuery) :
    Similar (Option.Rel SameAccount) (conclude row final orders query) (conclude row final' orders' query) := by
  unfold conclude
  rw [recordedIdentity_eq hid]
  refine Similar.same (fun _ _ => ?_)
  refine (fill_similar (hrow.cells "order_status" (cells_status row).1) hrow.numbers).bind (fun f g _ _ hfill => ?_)
  refine (inScope_similar hrow hfill).bind (fun _ _ _ _ _ => ?_)
  refine (resolution_similar hmem hrow hfill).bind (fun r r' _ _ hr => ?_)
  rw [hr]
  exact report_similar hrow hid hfill query r'

theorem account_similar (hmem : ∀ o, o ∈ orders ↔ o ∈ orders') (row : Journaled) (query : PositionQuery) :
    Similar (Option.Rel SameAccount) (account row orders query) (account row orders' query) := by
  unfold account
  refine (sameOrder_similar hmem).bind (fun final final' _ _ hfinal => ?_)
  have hchecks : checkAll (agrees row final) orders = .ok () ↔ checkAll (agrees row final') orders' = .ok () := by
    simp only [checkAll_ok, agrees_ok]
    exact ⟨agreeing_rows hmem hfinal.1.2, agreeing_rows (fun o => (hmem o).symm) hfinal.1.1⟩
  refine (Similar.checks hchecks).bind (fun _ _ hpass _ _ => ?_)
  have hrows := checkAll_ok.mp hpass final' ((hmem final').mpr hfinal.1.2)
  exact conclude_similar hmem (agrees_ok.mp hrows).2 hfinal.2 query

end Real

/-- Accounting depends on which rows there are, and on nothing else: not on their
order, and not on how often each of them occurs. -/
theorem account_order_free (env : Environment) (row : Journaled) (query : PositionQuery) {orders orders' : List Fields}
    (h : ∀ o, o ∈ orders ↔ o ∈ orders') :
    Similar (Option.Rel SameAccount) (account env row orders query) (account env row orders' query) := by
  cases env with
  | simulate => exact Paper.account_similar h row query
  | real => exact Real.account_similar h row query

/-- A partly filled order with the tag of its placement, its fill in a given notation. -/
def partlyFilled (fill : Value) : Fields :=
  [("order_id", .text "11"), ("order_status", .text "FILLED_PART"), ("code", .text "US.AAPL"), ("trd_side", .text "BUY"),
    ("order_type", .text "NORMAL"), ("qty", .number (.finite ⟨5, 0⟩)), ("price", .number (.finite ⟨10, 0⟩)),
    ("dealt_qty", fill), ("dealt_avg_price", .number (.finite ⟨10, 0⟩)), ("remark", .text "mm1-tag")]

def placed : Journaled where
  kind := .place
  account := "7"
  orderTag := some "mm1-tag"
  brokerOrderId := none
  request := [("code", .text "US.AAPL"), ("trd_side", .text "BUY"), ("qty", .number (.finite ⟨5, 0⟩)), ("price", .text "10.00")]
  mergedRequest := none

def noPositions : PositionQuery := fun _ => .ok (.list [])

def whole : Fields := partlyFilled (.number (.finite ⟨1, 0⟩))

def fractional : Fields := partlyFilled (.number (.finite ⟨10, -1⟩))

theorem swapped_rows : Similar (Option.Rel SameAccount) (account .simulate placed [whole, fractional] noPositions)
    (account .simulate placed [fractional, whole, whole] noPositions) :=
  account_order_free .simulate placed noPositions (by simp [or_comm])

/-- The filled quantity that accounting reports, as the source stores it. -/
def filledText (result : Except Exc (Option Accounted)) : Option String :=
  result.toOption.join.map (fun a => a.facts.filledQuantity.str)

/-- The facts are texts, and these are taken from the first row. -/
theorem first_row_notation :
    filledText (account .simulate placed [whole, fractional] noPositions) = some "1" ∧
      filledText (account .simulate placed [fractional, whole] noPositions) = some "1.0" := by
  decide +kernel

end MoomooMcp.RecoveryEvidence
