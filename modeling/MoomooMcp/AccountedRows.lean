import MoomooMcp.EvidenceRows

namespace MoomooMcp.RecoveryEvidence

open Accounting (checkAll refuseIf)
open ExecutionStore (Resolution)
open Checks

/-- The cells that all rows of an operation have to agree in. -/
def rowCells : Environment → Journaled → List String
  | .simulate, _ => Paper.cells
  | .real, row => Real.cells row

def rowLegs : Environment → Journaled → Bool
  | .simulate, _ => false
  | .real, row => Real.combo row

def inScope : Environment → Journaled → Fields → Fill → Except Exc Unit
  | .simulate, _ => Paper.inScope
  | .real, row => Real.inScope row

def resolution : Environment → Journaled → Fields → Fill → List Fields → Except Exc (Option Resolution)
  | .simulate, row, final, f, _ => Paper.resolution row final f
  | .real, row, final, f, orders => Real.resolution row final f orders

def report : Environment → Journaled → Fields → Fill → PositionQuery → Option Resolution →
    Except Exc (Option Accounted)
  | .simulate => Paper.report
  | .real => Real.report

/-- The rows identify one order, agree with each other and are in the scope of the environment. -/
structure Consistent (env : Environment) (row : Journaled) (orders : List Fields) (final : Fields) (f : Fill) : Prop where
  head : orders.head? = some final
  identity : ∃ id, OneOrder orders id
  rows : ∀ o ∈ orders, RemarkFits row o ∧ SameRow (rowCells env row) (rowLegs env row) final o
  recorded : ∀ id ∈ row.brokerOrderId, asText (Value.get final "order_id") = some id
  fill : fill final = .ok f
  scope : inScope env row final f = .ok ()

variable {env : Environment} {row : Journaled} {orders : List Fields} {final : Fields} {f : Fill} {query : PositionQuery}

theorem recordedIdentity_ok :
    recordedIdentity row final = .ok () ↔ ∀ id ∈ row.brokerOrderId, asText (Value.get final "order_id") = some id := by
  rw [recordedIdentity, refuseIf_ok]
  cases row.brokerOrderId with
  | none => simp
  | some id => simp

theorem fill_ok : fill final = .ok f ↔
    f.status = text final "order_status" ∧ number (Value.get final "qty") = .ok f.qty ∧
      number (Value.get final "price") = .ok f.price ∧ number (Value.get final "dealt_qty") = .ok f.filled ∧
      number (Value.get final "dealt_avg_price") = .ok f.average := by
  unfold fill
  constructor
  · intro h
    obtain ⟨q, hq, h⟩ := bind_ok.mp h
    obtain ⟨p, hp, h⟩ := bind_ok.mp h
    obtain ⟨d, hd, h⟩ := bind_ok.mp h
    obtain ⟨a, ha, h⟩ := bind_ok.mp h
    cases h
    exact ⟨rfl, hq, hp, hd, ha⟩
  · rintro ⟨hs, hq, hp, hd, ha⟩
    refine bind_ok.mpr ⟨_, hq, bind_ok.mpr ⟨_, hp, bind_ok.mpr ⟨_, hd, bind_ok.mpr ⟨_, ha, ?_⟩⟩⟩⟩
    rw [← hs]

/-- Consistent rows leave the resolution and its report to decide. -/
theorem Consistent.account_eq (h : Consistent env row orders final f) :
    account env row orders query = resolution env row final f orders >>= report env row final f query := by
  have hfinal : sameOrder orders = .ok final := sameOrder_ok.mpr ⟨h.head, h.identity⟩
  have hrecorded : recordedIdentity row final = .ok () := recordedIdentity_ok.mpr h.recorded
  cases env with
  | simulate =>
      have hrows : checkAll (Paper.agrees row final) orders = .ok () :=
        checkAll_ok.mpr (fun o ho => Paper.agrees_ok.mpr (h.rows o ho))
      have hscope : Paper.inScope final f = .ok () := h.scope
      show Paper.account row orders query = _
      rw [Paper.account, ok_bind hfinal, ok_bind hrows, Paper.conclude, ok_bind hrecorded, ok_bind h.fill, ok_bind hscope]
      rfl
  | real =>
      have hrows : checkAll (Real.agrees row final) orders = .ok () :=
        checkAll_ok.mpr (fun o ho => Real.agrees_ok.mpr (h.rows o ho))
      have hscope : Real.inScope row final f = .ok () := h.scope
      show Real.account row orders query = _
      rw [Real.account, ok_bind hfinal, ok_bind hrows, Real.conclude, ok_bind hrecorded, ok_bind h.fill, ok_bind hscope]
      rfl

/-- What accounting comes to: consistent rows, a resolution, and what is reported of it. -/
theorem account_ok {r : Option Accounted} : account env row orders query = .ok r ↔
    ∃ final f, Consistent env row orders final f ∧
      ∃ res, resolution env row final f orders = .ok res ∧ report env row final f query res = .ok r := by
  constructor
  · intro h
    cases env with
    | simulate =>
        obtain ⟨final, hfinal, h⟩ := bind_ok.mp (show Paper.account row orders query = .ok r from h)
        obtain ⟨_, hrows, h⟩ := bind_ok.mp h
        obtain ⟨_, hrecorded, h⟩ := bind_ok.mp h
        obtain ⟨f, hfill, h⟩ := bind_ok.mp h
        obtain ⟨_, hscope, h⟩ := bind_ok.mp h
        obtain ⟨res, hres, h⟩ := bind_ok.mp h
        exact ⟨final, f, ⟨(sameOrder_ok.mp hfinal).1, (sameOrder_ok.mp hfinal).2,
          fun o ho => Paper.agrees_ok.mp (checkAll_ok.mp hrows o ho), recordedIdentity_ok.mp hrecorded, hfill, hscope⟩,
          res, hres, h⟩
    | real =>
        obtain ⟨final, hfinal, h⟩ := bind_ok.mp (show Real.account row orders query = .ok r from h)
        obtain ⟨_, hrows, h⟩ := bind_ok.mp h
        obtain ⟨_, hrecorded, h⟩ := bind_ok.mp h
        obtain ⟨f, hfill, h⟩ := bind_ok.mp h
        obtain ⟨_, hscope, h⟩ := bind_ok.mp h
        obtain ⟨res, hres, h⟩ := bind_ok.mp h
        exact ⟨final, f, ⟨(sameOrder_ok.mp hfinal).1, (sameOrder_ok.mp hfinal).2,
          fun o ho => Real.agrees_ok.mp (checkAll_ok.mp hrows o ho), recordedIdentity_ok.mp hrecorded, hfill, hscope⟩,
          res, hres, h⟩
  · rintro ⟨final, f, hc, res, hres, h⟩
    rw [hc.account_eq]
    exact bind_ok.mpr ⟨res, hres, h⟩

/-- What the rows are to be accounted for by is determined by the rows. -/
theorem Consistent.unique {final' : Fields} {f' : Fill} (h : Consistent env row orders final f)
    (h' : Consistent env row orders final' f') : final = final' ∧ f = f' := by
  have hfinal : final = final' := Option.some.inj (h.head.symm.trans h'.head)
  subst hfinal
  exact ⟨rfl, Except.ok.inj (h.fill.symm.trans h'.fill)⟩

theorem status_mem (env : Environment) (row : Journaled) : "order_status" ∈ rowCells env row := by
  cases env with
  | simulate => exact List.mem_cons_self
  | real =>
      show _ ∈ Real.cells row
      unfold Real.cells
      split <;> exact List.mem_cons_self

/-- The rows agree, so every one of them shows the status and the numbers of the first. -/
theorem Consistent.status (h : Consistent env row orders final f) : ∀ o ∈ orders, text o "order_status" = f.status := by
  intro o ho
  rw [(fill_ok.mp h.fill).1]
  exact ((h.rows o ho).2.cells _ (status_mem env row)).text_eq.symm

/-- A row shows a number that another value denotes. -/
def Shows (o : Fields) (name : String) (v : Value) : Prop :=
  ∃ d d', number (Value.get o name) = .ok d ∧ number v = .ok d' ∧ d.value = d'.value

theorem Consistent.shows (h : Consistent env row orders final f) {name : String} (hname : name ∈ numbers) {v : Value}
    (hv : Shows final name v) : ∀ o ∈ orders, Shows o name v := by
  intro o ho
  obtain ⟨d, d', hd, hd', he⟩ := (h.rows o ho).2.numbers name hname
  obtain ⟨e, e', hf, hv', hfe⟩ := hv
  cases hd.symm.trans hf
  exact ⟨d', e', hd', hv', he.symm.trans hfe⟩

theorem exists_accounted {result : Except Exc (Option Accounted)} (h : result.toOption.join.isSome = true) :
    ∃ a, result = .ok (some a) := by
  cases result with
  | error e => cases h
  | ok r =>
      cases r with
      | none => cases h
      | some a => exact ⟨a, rfl⟩

/-- The report of a resolution: the first row is the receipt, and the facts are of its numbers. -/
structure Reported (env : Environment) (row : Journaled) (final : Fields) (f : Fill) (a : Accounted) : Prop where
  receipt : a.receipt = final
  account : a.facts.accId = row.account
  environment : a.facts.trdEnv = env
  status : a.facts.brokerStatus = f.status
  filled : a.facts.filledQuantity = f.filled
  average : a.facts.averageFillPrice = f.average
  remaining : f.remaining = .ok a.facts.remainingExecutableQuantity
  proven : a.facts.mutationSuccessProven = placement row.kind

theorem accounted_ok {code : Option String} {held : List (String × Decimal)} {res : Resolution} {r : Option Accounted} :
    accounted env row final f code held res = .ok r ↔
      ∃ a, r = some a ∧ a.resolution = res ∧ a.facts.code = code ∧ a.facts.currentPositions = held ∧
        Reported env row final f a := by
  unfold accounted
  constructor
  · intro h
    obtain ⟨remaining, hrem, h⟩ := bind_ok.mp h
    cases h
    exact ⟨_, rfl, rfl, rfl, rfl, rfl, rfl, rfl, rfl, rfl, rfl, hrem, rfl⟩
  · rintro ⟨⟨receipt, facts, res'⟩, rfl, rfl, rfl, rfl, hr⟩
    obtain ⟨rfl, hacc, henv, hstatus, hfilled, haverage, hrem, hproven⟩ := hr
    refine bind_ok.mpr ⟨_, hrem, ?_⟩
    rw [← hacc, ← henv, ← hstatus, ← hfilled, ← haverage, ← hproven]

end MoomooMcp.RecoveryEvidence
