import MoomooMcp.PaperBoundary
import MoomooMcp.RealBoundary

namespace MoomooMcp

open Intent OrderErrors OrderRules Accounts ClientAuthorization PreDispatch

namespace PreDispatch

variable {α : Type} {operation : String} {admitted identityLookup : Bool}

theorem inScope_ok {x : Except Exc α} {a : α} : inScope operation admitted identityLookup x = .ok a ↔ x = .ok a := by
  cases x with
  | error e => exact iff_of_false nofun nofun
  | ok b => exact Iff.rfl

theorem storedResult_ok {row : StoredRow} {proposed : String} {passed : Passed} :
    storedResult row proposed = .ok passed ↔
      passed = .storedResult ∧ PaperIdentity.differingFields row.canonical proposed = .ok [] := by
  rw [storedResult, Checks.bind_ok]
  constructor
  · rintro ⟨differing, hd, h⟩
    by_cases hsame : differing = []
    · subst hsame
      cases h
      exact ⟨rfl, hd⟩
    · rw [if_pos hsame] at h
      cases h
  · rintro ⟨rfl, hd⟩
    exact ⟨[], hd, rfl⟩

end PreDispatch

namespace PaperBoundary

variable {w : World} {kind : Kind} {fields : Fields} {p : Parameters} {method accId : String} {row : StoredRow}
  {passed : Passed}

/-- The request a client makes under a known operation is the recorded one. -/
def SameRequest (kind : Kind) (fields : Fields) (accId : String) (row : StoredRow) : Prop :=
  ∃ a proposed, exactAccountId accId = .ok a ∧ (a = 0 ∨ a = row.account) ∧
    PaperIdentity.canonicalizeRequest "SIMULATE" row.account (PaperIdentity.opType kind) fields = .ok proposed ∧
    PaperIdentity.differingFields row.canonical proposed = .ok []

/-- Where nothing differs, the account does not. -/
theorem same_account {a : Account} {env op proposed : String}
    (h : PaperIdentity.canonicalizeRequest env a op fields = .ok proposed)
    (hd : PaperIdentity.differingFields row.canonical proposed = .ok []) : a = row.account := by
  obtain ⟨env', op', l, hrow⟩ := row.readable
  obtain ⟨f, r, -, -, -, hload⟩ := PaperIdentity.canonicalizeRequest_loads h
  rw [PaperIdentity.differingFields_eq hrow hload, Except.ok.injEq, List.append_eq_nil_iff,
    PaperIdentity.header_eq_nil] at hd
  exact hd.1.2.1.symm

theorem retry_ok_iff : retry w kind fields accId row = .ok passed ↔
    passed = .storedResult ∧ w.may row.account = true ∧ SameRequest kind fields accId row := by
  rw [retry, Checks.bind_ok]
  constructor
  · rintro ⟨a, ha, h⟩
    obtain ⟨_, hmay, h⟩ := Checks.bind_ok.mp h
    obtain ⟨proposed, hp, h⟩ := Checks.bind_ok.mp h
    obtain ⟨rfl, hd⟩ := storedResult_ok.mp h
    have hsame : (if a = 0 then row.account else a) = row.account := same_account hp hd
    rw [hsame] at hp
    refine ⟨rfl, access_ok_iff.mp hmay, a, proposed, ha, ?_, hp, hd⟩
    by_cases h0 : a = 0
    · exact .inl h0
    · rw [if_neg h0] at hsame
      exact .inr hsame
  · rintro ⟨rfl, hmay, a, proposed, ha, haccount, hp, hd⟩
    refine ⟨a, ha, Checks.bind_ok.mpr ⟨(), access_ok_iff.mpr hmay, Checks.bind_ok.mpr ⟨proposed, ?_, ?_⟩⟩⟩
    · rcases haccount with rfl | rfl
      · rw [if_pos rfl]
        exact hp
      · rw [ite_self]
        exact hp
    · exact storedResult_ok.mpr ⟨rfl, hd⟩

/-- The row that one of the lookups has found, whichever comes first. -/
inductive Found (w : World) (kind : Kind) (fields : Fields) (p : Parameters) (row : StoredRow) : Prop
  | late (h : w.late = some row)
  | stored (hlate : w.late = none) (h : w.lookup = .ok (some row))
  | meanwhile (hunseen : Unseen w) (h : w.lookupAgain = .ok (some row))
  | inserted (hunseen : Unseen w) (habsent : w.lookupAgain = .ok none) (hreserved : Reserved w kind fields p)
      (h : w.insert = .ok (some row))

/-- What has passed before the operation got a row of its own. -/
structure Admits (w : World) (kind : Kind) (fields : Fields) (p : Parameters) : Prop where
  unseen : Unseen w
  absent : w.lookupAgain = .ok none
  reserved : Reserved w kind fields p
  inserted : w.insert = .ok none

theorem new_some (h : admitNew w kind fields p = .ok (some passed)) :
    ∃ row, Reserved w kind fields p ∧ w.insert = .ok (some row) ∧ retry w kind fields p.accId row = .ok passed := by
  unfold admitNew at h
  by_cases hepoch : p.admissionEpoch = some w.epoch
  · rw [if_neg (not_not.mpr hepoch)] at h
    obtain ⟨_, hready, h⟩ := Checks.bind_ok.mp h
    obtain ⟨account, haccount, h⟩ := Checks.bind_ok.mp h
    obtain ⟨s, hs, h⟩ := Checks.bind_ok.mp h
    obtain ⟨_, hquota, h⟩ := Checks.bind_ok.mp h
    obtain ⟨found, hfound, h⟩ := Checks.bind_ok.mp h
    cases found with
    | none => cases h
    | some row =>
        obtain ⟨passed', hretry, h⟩ := Checks.bind_ok.mp h
        cases h
        refine ⟨row, ⟨hepoch, lift_ok_iff.mp hready, ⟨account, haccount⟩, written_iff.mp ⟨s, hs⟩, lift_ok_iff.mp hquota⟩, ?_⟩
        exact ⟨lift_ok_iff.mp hfound, hretry⟩
  · rw [if_pos hepoch] at h
    cases h

theorem new_of_reserved (hr : Reserved w kind fields p) (h : w.insert = .ok (some row)) :
    admitNew w kind fields p = (retry w kind fields p.accId row).map some := by
  obtain ⟨account, haccount⟩ := hr.account
  obtain ⟨s, hs⟩ : ∃ s, PaperIdentity.canonicalizeRequest "SIMULATE" account (PaperIdentity.opType kind) fields = .ok s :=
    written_iff.mpr hr.written
  unfold admitNew
  rw [if_neg (not_not.mpr hr.current), hr.ready, haccount, hr.quota, h]
  change (PaperIdentity.canonicalizeRequest "SIMULATE" account (PaperIdentity.opType kind) fields >>= fun _ => _) = _
  rw [hs]
  exact Checks.bind_pure_map _ _

/-- A call ends before its operation has a row of its own, or it made that row. -/
inductive Ending (w : World) (kind : Kind) (fields : Fields) (p : Parameters) : Outcome → Prop
  | failed (e : Exc) : Ending w kind fields p ⟨.error e, false, false⟩
  | known {row : StoredRow} {passed : Passed} (hfound : Found w kind fields p row) (h : retry w kind fields p.accId row = .ok passed) :
      Ending w kind fields p ⟨.ok passed, false, false⟩
  | dispatched (h : Admits w kind fields p) : Ending w kind fields p (dispatch w kind fields)

theorem retry_ending {row : StoredRow} (h : Found w kind fields p row) :
    Ending w kind fields p ⟨retry w kind fields p.accId row, false, false⟩ := by
  cases hr : retry w kind fields p.accId row with
  | error e => exact .failed e
  | ok passed => exact .known h hr

theorem unknown_ending (hu : Unseen w) : Ending w kind fields p (unknownOperation w kind fields p) := by
  unfold unknownOperation
  cases ha : admission w kind fields p with
  | error e => exact .failed _
  | ok found =>
      obtain ⟨seen, hseen, h⟩ := Checks.bind_ok.mp ha
      cases seen with
      | some row =>
          obtain ⟨passed, hretry, h⟩ := Checks.bind_ok.mp h
          cases h
          exact .known (.meanwhile hu (stored_ok_iff.mp hseen)) hretry
      | none =>
          cases found with
          | none =>
              obtain ⟨hreserved, hinserted⟩ := new_ok_none_iff.mp h
              exact .dispatched ⟨hu, stored_ok_iff.mp hseen, hreserved, hinserted⟩
          | some passed =>
              obtain ⟨row, hreserved, hinserted, hretry⟩ := new_some h
              exact .known (.inserted hu (stored_ok_iff.mp hseen) hreserved hinserted) hretry

theorem execute_ending : Ending w kind fields p (execute w kind fields p) := by
  unfold execute
  cases front w kind fields p with
  | error e => exact .failed _
  | ok _ =>
      cases hlate : w.late with
      | some row => exact retry_ending (.late hlate)
      | none =>
          cases hlookup : w.lookup with
          | error message => exact .failed _
          | ok found =>
              cases found with
              | some row => exact retry_ending (.stored hlate hlookup)
              | none => exact unknown_ending ⟨hlate, hlookup⟩

theorem dispatch_admitted : (dispatch w kind fields).admitted = true ∧
    ∀ passed, (dispatch w kind fields).result = .ok passed → passed = .writeStarts := by
  unfold dispatch
  cases dispatchChecks w kind fields with
  | ok _ => exact ⟨rfl, fun _ h => by cases h; rfl⟩
  | error e =>
      cases w.storeRefusal.lift with
      | ok _ => exact ⟨rfl, nofun⟩
      | error e' => exact ⟨rfl, nofun⟩

/-- Every call, by how it ends. -/
theorem call_ending : (∃ e, call w method p = ⟨.error e, false, false⟩) ∨
    ∃ kind fields, Entered w method p kind fields ∧ call w method p = execute w kind fields p ∧
      Ending w kind fields p (call w method p) := by
  unfold call
  cases hgiven : PaperRequests.paperRequest w.policy method p with
  | error e => exact .inl ⟨_, rfl⟩
  | ok request =>
      obtain ⟨kind, fields⟩ := request
      cases hopening : opening w kind with
      | error e =>
          refine .inl ⟨notSent ("paper " ++ PaperIdentity.opType kind) false false e, ?_⟩
          simp only [inScope, Except.mapError, paperExecute, hopening]
      | ok _ =>
          have hexecute : paperExecute w kind fields p = execute w kind fields p := by
            simp only [paperExecute, hopening, inScope, Except.mapError]
          cases hfront : front w kind fields p with
          | error e =>
              refine .inl ⟨notSent ("paper " ++ PaperIdentity.opType kind) false false e, ?_⟩
              change paperExecute w kind fields p = _
              rw [hexecute, execute, hfront]
              rfl
          | ok _ =>
              refine .inr ⟨kind, fields, ⟨hgiven, (opening_ok_iff.mp hopening).2, hfront⟩, hexecute, ?_⟩
              change Ending w kind fields p (paperExecute w kind fields p)
              rw [hexecute]
              exact execute_ending

/-- A call under a known operation answers with the comparison of the two requests. -/
theorem execute_found {row : StoredRow} (hchecked : front w kind fields p = .ok ()) (h : Found w kind fields p row) :
    (execute w kind fields p).result = .ok passed ↔ retry w kind fields p.accId row = .ok passed := by
  cases h with
  | late h => simp only [execute, hchecked, inScope, Except.mapError, h]
  | stored hlate h => simp only [execute, hchecked, inScope, Except.mapError, hlate, h, stored]
  | meanwhile hunseen h =>
      have hadmission : admission w kind fields p = (retry w kind fields p.accId row).map some := by
        rw [admission, h]
        exact Checks.bind_pure_map _ _
      simp only [execute, hchecked, inScope, Except.mapError, hunseen.1, hunseen.2, stored, unknownOperation, hadmission]
      cases retry w kind fields p.accId row with
      | error e => refine iff_of_false ?_ ?_ <;> (intro h; cases h)
      | ok passed' => exact Iff.rfl
  | inserted hunseen habsent hreserved h =>
      have hadmission : admission w kind fields p = (retry w kind fields p.accId row).map some := by
        rw [admission, habsent]
        exact new_of_reserved hreserved h
      simp only [execute, hchecked, inScope, Except.mapError, hunseen.1, hunseen.2, stored, unknownOperation, hadmission]
      cases retry w kind fields p.accId row with
      | error e => refine iff_of_false ?_ ?_ <;> (intro h; cases h)
      | ok passed' => exact Iff.rfl

/-- A stored result is returned for a known operation of an account that the client may
trade, where the request is the recorded one, and in no other case. -/
theorem call_returns_iff : (call w method p).result = .ok .storedResult ↔
    ∃ kind fields row, Entered w method p kind fields ∧ Found w kind fields p row ∧ w.may row.account = true ∧
      SameRequest kind fields p.accId row := by
  constructor
  · intro h
    rcases @call_ending w p method with ⟨e, he⟩ | ⟨kind, fields, hentered, -, hending⟩
    · rw [he] at h
      cases h
    · generalize call w method p = o at h hending
      cases hending with
      | failed => cases h
      | @known row passed hfound hretry =>
          obtain ⟨-, hmay, hsame⟩ := retry_ok_iff.mp hretry
          exact ⟨kind, fields, row, hentered, hfound, hmay, hsame⟩
      | dispatched _ => cases dispatch_admitted.2 _ h
  · rintro ⟨kind, fields, row, hentered, hfound, hmay, hsame⟩
    rcases @call_ending w p method with ⟨e, he⟩ | ⟨kind', fields', hentered', hexecute, -⟩
    · have hwrite : w.policy.checkWrite (PaperIdentity.opType kind) "SIMULATE" = .ok () := by
        obtain ⟨_, hwrite, -⟩ := Checks.bind_ok.mp hentered.checked
        exact hwrite
      have hexecute : call w method p = execute w kind fields p := by
        simp only [call, hentered.given, inScope, Except.mapError, paperExecute,
          opening_ok_iff.mpr ⟨hwrite, hentered.configured⟩]
      rw [hexecute, execute_found hentered.checked hfound]
      exact retry_ok_iff.mpr ⟨rfl, hmay, hsame⟩
    · cases hentered.given.symm.trans hentered'.given
      rw [hexecute, execute_found hentered.checked hfound]
      exact retry_ok_iff.mpr ⟨rfl, hmay, hsame⟩

end PaperBoundary
namespace RealBoundary

open RealIdentity

variable {w : World} {method kind : String} {p : Parameters} {row : StoredRow} {passed : Passed}

/-- The request a client makes under a known operation is the recorded one. -/
def SameRequest (kind : String) (p : Parameters) (row : StoredRow) : Prop :=
  ∃ a proposed, exactAccountId p.accId = .ok a ∧ (a = 0 ∨ a = row.account) ∧
    canonicalRealRequest row.account kind (original p) = .ok proposed ∧
    PaperIdentity.differingFields row.canonical proposed = .ok []

/-- The text of a REAL request is read as the record of one. -/
theorem canonicalRealRequest_readable {a : Account} {q : Fields} {s : String} (h : canonicalRealRequest a kind q = .ok s) :
    ∃ env op params, Json.loads s = .ok (.object (PaperIdentity.readRequest env a op params)) := by
  obtain ⟨p', -, hl, -⟩ := canonicalRealRequest_ok h
  rw [Json.sortKeys_request] at hl
  exact ⟨"REAL", kind, _, hl⟩

/-- Where nothing differs, the account does not. -/
theorem same_account {a : Account} {q : Fields} {proposed : String} (h : canonicalRealRequest a kind q = .ok proposed)
    (hd : PaperIdentity.differingFields row.canonical proposed = .ok []) : a = row.account := by
  obtain ⟨env', op', l, hrow⟩ := row.readable
  obtain ⟨env, op, r, hload⟩ := canonicalRealRequest_readable h
  rw [PaperIdentity.differingFields_eq hrow hload, Except.ok.injEq, List.append_eq_nil_iff,
    PaperIdentity.header_eq_nil] at hd
  exact hd.1.2.1.symm

theorem retry_ok_iff : retryRow w kind p row = .ok passed ↔
    passed = .storedResult ∧ w.may row.account = true ∧ SameRequest kind p row := by
  rw [retryRow, Checks.bind_ok]
  constructor
  · rintro ⟨_, hmay, h⟩
    obtain ⟨a, ha, h⟩ := Checks.bind_ok.mp h
    obtain ⟨proposed, hp, h⟩ := Checks.bind_ok.mp h
    obtain ⟨rfl, hd⟩ := storedResult_ok.mp h
    have hsame : (if a = 0 then row.account else a) = row.account := same_account hp hd
    rw [hsame] at hp
    refine ⟨rfl, access_ok_iff.mp hmay, a, proposed, ha, ?_, hp, hd⟩
    by_cases h0 : a = 0
    · exact .inl h0
    · rw [if_neg h0] at hsame
      exact .inr hsame
  · rintro ⟨rfl, hmay, a, proposed, ha, haccount, hp, hd⟩
    refine ⟨(), access_ok_iff.mpr hmay, Checks.bind_ok.mpr ⟨a, ha, Checks.bind_ok.mpr ⟨proposed, ?_, ?_⟩⟩⟩
    · rcases haccount with rfl | rfl
      · rw [if_pos rfl]
        exact hp
      · rw [ite_self]
        exact hp
    · exact storedResult_ok.mpr ⟨rfl, hd⟩

/-- The two lookups before the admission found nothing. -/
def Unseen (w : World) : Prop := rowOf w.late w.lookup = .ok none ∧ rowOf w.lateAgain w.lookupAgain = .ok none

/-- The account of a new operation, once its request has passed. -/
def resolved (w : World) (method kind : String) (p : Parameters) : Except Exc Account :=
  preflight w method kind p >>= account w p

/-- The row that one of the lookups has found, whichever comes first. -/
inductive Found (w : World) (method kind : String) (p : Parameters) (row : StoredRow) : Prop
  | stored (h : rowOf w.late w.lookup = .ok (some row))
  | meanwhile (hunseen : rowOf w.late w.lookup = .ok none) (h : rowOf w.lateAgain w.lookupAgain = .ok (some row))
  | inserted {a s} (hunseen : Unseen w) (hresolved : resolved w method kind p = .ok a)
      (hwritten : canonicalRealRequest a kind (original p) = .ok s) (h : w.insert = .ok (some row))

/-- What has passed before the operation got a row of its own. -/
structure Admits (w : World) (method kind : String) (p : Parameters) : Prop where
  unseen : Unseen w
  resolved : ∃ a s, resolved w method kind p = .ok a ∧ canonicalRealRequest a kind (original p) = .ok s
  inserted : w.insert = .ok none

/-- A call ends before its operation has a row of its own, or it made that row. -/
inductive Ending (w : World) (method kind : String) (p : Parameters) : Outcome → Prop
  | failed (e : Exc) : Ending w method kind p ⟨.error e, false, false⟩
  | known {row : StoredRow} {passed : Passed} (hfound : Found w method kind p row) (h : retryRow w kind p row = .ok passed) :
      Ending w method kind p ⟨.ok passed, false, false⟩
  | dispatched (h : Admits w method kind p) : Ending w method kind p (dispatch w method)

theorem retry_ending (h : Found w method kind p row) : Ending w method kind p ⟨retryRow w kind p row, false, false⟩ := by
  cases hr : retryRow w kind p row with
  | error e => exact .failed e
  | ok passed => exact .known h hr

theorem new_ending (hu : Unseen w) : Ending w method kind p (newOperation w method kind p) := by
  unfold newOperation
  cases hr : preflight w method kind p >>= account w p with
  | error e => exact .failed _
  | ok a =>
      change Ending w method kind p (insertRow w method kind p a)
      unfold insertRow
      cases hc : canonicalRealRequest a kind (original p) with
      | error e => exact .failed _
      | ok s =>
          cases hi : w.insert with
          | error failure => exact .failed _
          | ok found =>
              cases found with
              | some row => exact retry_ending (.inserted hu hr hc hi)
              | none => exact .dispatched ⟨hu, ⟨a, s, hr, hc⟩, hi⟩

theorem execute_ending (hfront : front w method p = .ok kind) : Ending w method kind p (execute w method p) := by
  unfold execute
  rw [hfront]
  change Ending w method kind p (resume w kind p (rowOf w.late w.lookup) _)
  cases hfirst : rowOf w.late w.lookup with
  | error e => exact .failed e
  | ok found =>
      cases found with
      | some row => exact retry_ending (.stored hfirst)
      | none =>
          change Ending w method kind p (resume w kind p (rowOf w.lateAgain w.lookupAgain) _)
          cases hsecond : rowOf w.lateAgain w.lookupAgain with
          | error e => exact .failed e
          | ok found =>
              cases found with
              | some row => exact retry_ending (.meanwhile hfirst hsecond)
              | none => exact new_ending ⟨hfirst, hsecond⟩

theorem dispatch_admitted : (dispatch w method).admitted = true ∧
    ∀ passed, (dispatch w method).result = .ok passed → passed = .writeStarts := by
  unfold dispatch
  cases w.attempt with
  | ok _ => exact ⟨rfl, fun _ h => by cases h; rfl⟩
  | error e => exact ⟨rfl, nofun⟩

/-- What a public method has passed when its operation is looked up. -/
structure Entered (w : World) (method : String) (p : Parameters) (kind : String) : Prop where
  opened : opening w method = .ok ()
  checked : front w method p = .ok kind

theorem call_entered (h : Entered w method p kind) : call w method p = execute w method p := by
  simp only [call, h.opened, inScope, Except.mapError]

/-- Every call, by how it ends. -/
theorem call_ending : (∃ e, call w method p = ⟨.error e, false, false⟩) ∨
    ∃ kind, Entered w method p kind ∧ Ending w method kind p (call w method p) := by
  cases hopening : opening w method with
  | error e =>
      refine .inl ⟨notSent method false false e, ?_⟩
      simp only [call, hopening, inScope, Except.mapError]
  | ok _ =>
      cases hfront : front w method p with
      | error e =>
          refine .inl ⟨notSent method false false e, ?_⟩
          simp only [call, hopening, inScope, Except.mapError, execute, hfront]
      | ok kind =>
          have hentered : Entered w method p kind := ⟨hopening, hfront⟩
          refine .inr ⟨kind, hentered, ?_⟩
          rw [call_entered hentered]
          exact execute_ending hfront

theorem execute_found (hchecked : front w method p = .ok kind) (h : Found w method kind p row) :
    (execute w method p).result = retryRow w kind p row := by
  cases h with
  | stored h => simp only [execute, hchecked, inScope, Except.mapError, h, resume]
  | meanwhile hunseen h => simp only [execute, hchecked, inScope, Except.mapError, hunseen, h, resume]
  | inserted hunseen hresolved hwritten h =>
      simp only [execute, hchecked, inScope, Except.mapError, hunseen.1, hunseen.2, resume, newOperation]
      rw [resolved] at hresolved
      rw [hresolved]
      simp only [insertRow, hwritten, h]
      rfl

/-- A stored result is returned for a known operation of an account that the client may
trade, where the request is the recorded one, and in no other case. -/
theorem call_returns_iff : (call w method p).result = .ok .storedResult ↔
    ∃ kind row, Entered w method p kind ∧ Found w method kind p row ∧ w.may row.account = true ∧
      SameRequest kind p row := by
  constructor
  · intro h
    rcases @call_ending w method p with ⟨e, he⟩ | ⟨kind, hentered, hending⟩
    · rw [he] at h
      cases h
    · generalize call w method p = o at h hending
      cases hending with
      | failed => cases h
      | @known row passed hfound hretry =>
          obtain ⟨-, hmay, hsame⟩ := retry_ok_iff.mp hretry
          exact ⟨kind, row, hentered, hfound, hmay, hsame⟩
      | dispatched _ => cases dispatch_admitted.2 _ h
  · rintro ⟨kind, row, hentered, hfound, hmay, hsame⟩
    rw [call_entered hentered, execute_found hentered.checked hfound]
    exact retry_ok_iff.mpr ⟨rfl, hmay, hsame⟩

end RealBoundary
end MoomooMcp
