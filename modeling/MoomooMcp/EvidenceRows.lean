import MoomooMcp.Checks
import MoomooMcp.RecoveryEvidence

namespace MoomooMcp.RecoveryEvidence

open Accounting (checkAll refuseIf)
open Checks

theorem refuseIf_ok {bad : Prop} [Decidable bad] {message : String} : refuseIf bad message = .ok () ↔ ¬bad := by
  unfold refuseIf
  split
  · next h => exact ⟨nofun, fun hn => absurd h hn⟩
  · next h => exact ⟨fun _ => h, fun _ => rfl⟩

theorem checkAll_ok {α : Type} {check : α → Except Exc Unit} {xs : List α} :
    checkAll check xs = .ok () ↔ ∀ x ∈ xs, check x = .ok () := by
  induction xs with
  | nil => exact ⟨fun _ => nofun, fun _ => rfl⟩
  | cons x xs ih =>
      show check x >>= (fun _ => checkAll check xs) = .ok () ↔ _
      rw [bind_ok, List.forall_mem_cons, ← ih]
      exact ⟨fun ⟨_, hx, hxs⟩ => ⟨hx, hxs⟩, fun ⟨hx, hxs⟩ => ⟨(), hx, hxs⟩⟩

/-- A check followed by another passes when both do. -/
theorem both_ok {x : Except Exc Unit} {f : Unit → Except Exc Unit} :
    x >>= f = .ok () ↔ x = .ok () ∧ f () = .ok () := by
  rw [bind_ok]
  exact ⟨fun ⟨_, hx, hf⟩ => ⟨hx, hf⟩, fun ⟨hx, hf⟩ => ⟨(), hx, hf⟩⟩

/-- The row carries no remark but the tag, and the tag itself where nothing else identifies the order. -/
def RemarkFits (row : Journaled) (o : Fields) : Prop :=
  ∀ tag ∈ row.orderTag,
    ((Value.get o "remark").isNull = true ∨ asText (Value.get o "remark") = some "" ∨
        asText (Value.get o "remark") = some tag) ∧
      (row.brokerOrderId = none → asText (Value.get o "remark") = some tag)

/-- Two rows show one value of a cell that every order has. -/
def SameCell (name : String) (o o' : Fields) : Prop :=
  ∃ c, cell (Value.get o name) = some c ∧ cell (Value.get o' name) = some c

/-- Two rows show one number, each in its own notation. -/
def SameNumber (name : String) (o o' : Fields) : Prop :=
  ∃ d d', number (Value.get o name) = .ok d ∧ number (Value.get o' name) = .ok d' ∧ d.value = d'.value

def SameLegs (o o' : Fields) : Prop :=
  ∃ legs, Real.legIdentities (Real.comboLegs o) = .ok legs ∧ Real.legIdentities (Real.comboLegs o') = .ok legs

def numbers : List String := ["qty", "price", "dealt_qty", "dealt_avg_price"]

/-- Two rows show the same order: its cells, its numbers, and its legs where it has any. -/
structure SameRow (names : List String) (legs : Bool) (o o' : Fields) : Prop where
  cells : ∀ name ∈ names, SameCell name o o'
  numbers : ∀ name ∈ numbers, SameNumber name o o'
  legs : legs = true → SameLegs o o'

variable {row : Journaled} {o o' o'' final : Fields} {name : String} {names : List String} {legs : Bool}

theorem SameCell.symm (h : SameCell name o o') : SameCell name o' o := by
  obtain ⟨c, hc, hc'⟩ := h
  exact ⟨c, hc', hc⟩

theorem SameCell.trans (h : SameCell name o o') (h' : SameCell name o' o'') : SameCell name o o'' := by
  obtain ⟨c, hc, hc'⟩ := h
  obtain ⟨e, he, he'⟩ := h'
  cases hc'.symm.trans he
  exact ⟨c, hc, he'⟩

theorem SameCell.cell_eq (h : SameCell name o o') : cell (Value.get o name) = cell (Value.get o' name) := by
  obtain ⟨c, hc, hc'⟩ := h
  rw [hc, hc']

theorem asText_eq_cell (v : Value) : asText v = (cell v).bind (fun c => match c with | .text s => some s | .number _ => none) := by
  cases v with
  | number n => cases n <;> rfl
  | null | bool | text | list | object => rfl

theorem SameCell.asText_eq (h : SameCell name o o') : asText (Value.get o name) = asText (Value.get o' name) := by
  rw [asText_eq_cell, asText_eq_cell, h.cell_eq]

theorem SameCell.text_eq (h : SameCell name o o') : text o name = text o' name := by
  rw [text, text, h.asText_eq]

theorem SameNumber.symm (h : SameNumber name o o') : SameNumber name o' o := by
  obtain ⟨d, d', hd, hd', hv⟩ := h
  exact ⟨d', d, hd', hd, hv.symm⟩

theorem SameNumber.trans (h : SameNumber name o o') (h' : SameNumber name o' o'') : SameNumber name o o'' := by
  obtain ⟨d, d', hd, hd', hv⟩ := h
  obtain ⟨e, e', he, he', hw⟩ := h'
  cases hd'.symm.trans he
  exact ⟨d, e', hd, he', hv.trans hw⟩

theorem SameLegs.symm (h : SameLegs o o') : SameLegs o' o := by
  obtain ⟨ls, hl, hl'⟩ := h
  exact ⟨ls, hl', hl⟩

theorem SameLegs.trans (h : SameLegs o o') (h' : SameLegs o' o'') : SameLegs o o'' := by
  obtain ⟨ls, hl, hl'⟩ := h
  obtain ⟨ms, hm, hm'⟩ := h'
  cases hl'.symm.trans hm
  exact ⟨ls, hl, hm'⟩

theorem SameRow.symm (h : SameRow names legs o o') : SameRow names legs o' o :=
  ⟨fun name hn => (h.cells name hn).symm, fun name hn => (h.numbers name hn).symm, fun hl => (h.legs hl).symm⟩

theorem SameRow.trans (h : SameRow names legs o o') (h' : SameRow names legs o' o'') : SameRow names legs o o'' :=
  ⟨fun name hn => (h.cells name hn).trans (h'.cells name hn), fun name hn => (h.numbers name hn).trans (h'.numbers name hn),
    fun hl => (h.legs hl).trans (h'.legs hl)⟩

theorem remarkAgrees_ok : remarkAgrees row o = .ok () ↔ RemarkFits row o := by
  unfold remarkAgrees RemarkFits
  cases row.orderTag with
  | none => simp
  | some tag =>
      rw [refuseIf_ok]
      simp only [Option.mem_some_iff, forall_eq']
      tauto

theorem cellAgrees_ok : cellAgrees name final o = .ok () ↔ SameCell name final o := by
  unfold cellAgrees SameCell
  rw [refuseIf_ok]
  cases cell (Value.get final name) with
  | none => simp
  | some c => simp

theorem numberAgrees_ok : numberAgrees name final o = .ok () ↔ SameNumber name final o := by
  unfold numberAgrees SameNumber
  constructor
  · intro h
    obtain ⟨d, hd, h⟩ := bind_ok.mp h
    obtain ⟨d', hd', h⟩ := bind_ok.mp h
    exact ⟨d', d, hd', hd, (not_not.mp (refuseIf_ok.mp h)).symm⟩
  · rintro ⟨d, d', hd, hd', hv⟩
    exact bind_ok.mpr ⟨d', hd', bind_ok.mpr ⟨d, hd, refuseIf_ok.mpr (not_not.mpr hv.symm)⟩⟩

theorem numbersAgree_ok : numbersAgree final o = .ok () ↔ ∀ name ∈ numbers, SameNumber name final o := by
  unfold numbersAgree numbers
  simp only [both_ok, numberAgrees_ok, List.forall_mem_cons, List.not_mem_nil, false_imp_iff, implies_true, and_true]

theorem legsAgree_ok : Real.legsAgree final o = .ok () ↔ SameLegs final o := by
  unfold Real.legsAgree SameLegs
  constructor
  · intro h
    obtain ⟨ls, hl, h⟩ := bind_ok.mp h
    obtain ⟨ms, hm, h⟩ := bind_ok.mp h
    exact ⟨ms, hm, not_not.mp (refuseIf_ok.mp h) ▸ hl⟩
  · rintro ⟨ls, hl, hl'⟩
    exact bind_ok.mpr ⟨ls, hl', bind_ok.mpr ⟨ls, hl, refuseIf_ok.mpr (not_not.mpr rfl)⟩⟩

def Paper.cells : List String := ["order_status", "code", "trd_side", "order_type"]

def Real.cells (row : Journaled) : List String :=
  if Real.combo row then ["order_status", "order_type"] else ["order_status", "order_type", "code", "trd_side"]

theorem Paper.agrees_ok : Paper.agrees row final o = .ok () ↔ RemarkFits row o ∧ SameRow Paper.cells false final o := by
  unfold Paper.agrees Paper.cells
  simp only [both_ok, remarkAgrees_ok, cellAgrees_ok, numbersAgree_ok]
  constructor
  · rintro ⟨hr, h1, h2, h3, h4, hn⟩
    exact ⟨hr, by simp [h1, h2, h3, h4], hn, nofun⟩
  · rintro ⟨hr, hc, hn, _⟩
    simp only [List.forall_mem_cons, List.not_mem_nil, false_imp_iff, implies_true, and_true] at hc
    exact ⟨hr, hc.1, hc.2.1, hc.2.2.1, hc.2.2.2, hn⟩

theorem Real.agrees_ok :
    Real.agrees row final o = .ok () ↔ RemarkFits row o ∧ SameRow (Real.cells row) (Real.combo row) final o := by
  unfold Real.agrees Real.cells
  cases hcombo : Real.combo row with
  | true =>
      simp only [both_ok, remarkAgrees_ok, cellAgrees_ok, numbersAgree_ok, legsAgree_ok, if_true]
      constructor
      · rintro ⟨hr, h1, h2, hn, hl⟩
        exact ⟨hr, by simp [h1, h2], hn, fun _ => hl⟩
      · rintro ⟨hr, hc, hn, hl⟩
        simp only [List.forall_mem_cons, List.not_mem_nil, false_imp_iff, implies_true, and_true] at hc
        exact ⟨hr, hc.1, hc.2, hn, hl rfl⟩
  | false =>
      simp only [both_ok, remarkAgrees_ok, cellAgrees_ok, numbersAgree_ok, Bool.false_eq_true, if_false]
      constructor
      · rintro ⟨hr, h1, h2, h3, h4, hn⟩
        exact ⟨hr, by simp [h1, h2, h3, h4], hn, nofun⟩
      · rintro ⟨hr, hc, hn, _⟩
        simp only [List.forall_mem_cons, List.not_mem_nil, false_imp_iff, implies_true, and_true] at hc
        exact ⟨hr, hc.1, hc.2.1, hc.2.2.1, hc.2.2.2, hn⟩

/-- All rows of a list carry one order identity. -/
def OneOrder (orders : List Fields) (id : String) : Prop :=
  orders ≠ [] ∧ ∀ o ∈ orders, asText (Value.get o "order_id") = some id

theorem orderId_ok {id : String} : orderId o = .ok id ↔ asText (Value.get o "order_id") = some id := by
  unfold orderId asText
  cases Value.get o "order_id" <;> simp

theorem dedup_singleton {ids : List String} {id : String} (hne : ids ≠ []) (h : ∀ x ∈ ids, x = id) :
    ids.dedup.length = 1 := by
  have hd : ids.dedup = [id] := by
    obtain ⟨n, hn⟩ : ∃ n, ids = List.replicate (n + 1) id := by
      obtain ⟨x, xs, rfl⟩ := List.exists_cons_of_ne_nil hne
      exact ⟨xs.length, List.eq_replicate_iff.mpr ⟨rfl, h⟩⟩
    rw [hn, List.replicate_dedup (Nat.succ_ne_zero n)]
  rw [hd]
  rfl

theorem sameOrder_ok {orders : List Fields} :
    sameOrder orders = .ok final ↔ orders.head? = some final ∧ ∃ id, OneOrder orders id := by
  unfold sameOrder
  constructor
  · intro h
    obtain ⟨ids, hids, h⟩ := bind_ok.mp h
    have hall := mapM_ok.mp hids
    cases orders with
    | nil => cases h
    | cons o rest =>
        obtain ⟨_, hone, h⟩ := bind_ok.mp h
        cases h
        obtain ⟨id, hid⟩ := List.length_eq_one_iff.mp (not_not.mp (refuseIf_ok.mp hone))
        refine ⟨rfl, id, List.cons_ne_nil _ _, fun o' ho' => ?_⟩
        obtain ⟨x, hx, hox⟩ := forall₂_mem hall o' ho'
        have hmem := List.mem_dedup.mpr hx
        rw [hid] at hmem
        cases List.mem_singleton.mp hmem
        exact orderId_ok.mp hox
  · rintro ⟨hhead, id, hne, hall⟩
    have hids : orders.mapM orderId = .ok (orders.map (fun _ => id)) := by
      refine mapM_ok.mpr ?_
      rw [List.forall₂_map_right_iff, List.forall₂_same]
      exact fun o ho => orderId_ok.mpr (hall o ho)
    refine bind_ok.mpr ⟨_, hids, ?_⟩
    cases orders with
    | nil => exact absurd rfl hne
    | cons o rest =>
        cases hhead
        have hone : ((final :: rest).map (fun _ => id)).dedup.length = 1 :=
          dedup_singleton (List.cons_ne_nil _ _) (fun x hx => List.eq_of_mem_replicate (List.map_const' ▸ hx))
        exact bind_ok.mpr ⟨(), refuseIf_ok.mpr (not_not.mpr hone), rfl⟩

end MoomooMcp.RecoveryEvidence
