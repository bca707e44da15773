import MoomooMcp.OrderContract
import MoomooMcp.PaperIdentity
import MoomooMcp.TradingControls
import MoomooMcp.Raising

namespace MoomooMcp.PreDispatch

open Intent Json OrderErrors OrderRules

/-- What the journal, the controls, the quota and the reads of the broker raise. -/
inductive FailureClass
  | storage
  | conflict
  | policy
  | control
  | value
  | type
  | runtime
  deriving DecidableEq

def FailureClass.excType : FailureClass → ExcType
  | .storage => .executionStore
  | .conflict => .executionConflict
  | .policy => .tradingPolicy
  | .control => .tradingControl
  | .value => .value
  | .type => .type
  | .runtime => .runtime

structure Failure where
  kind : FailureClass
  message : String

def Failure.exc (failure : Failure) : Exc := ⟨failure.kind.excType, failure.message, false⟩

/-- What another component answers. -/
abbrev Answer (α : Type) : Type := Except Failure α

def Answer.lift {α : Type} (answer : Answer α) : Except Exc α := answer.mapError Failure.exc

/-- The answer of a lookup: where it fails, the storage does. -/
def stored {α : Type} (answer : Except String α) : Except Exc α :=
  answer.mapError (fun message => ⟨.executionStore, message, false⟩)

/-- A row of the journal, whose text is the record of a request. -/
structure StoredRow where
  account : Account
  canonical : String
  readable : ∃ env kind params, loads canonical = .ok (.object (PaperIdentity.readRequest env account kind params))

/-- How an invocation ends before its write. -/
inductive Passed
  | storedResult
  | writeStarts
  deriving DecidableEq

/-- The result of a known operation, for a request that is the same as its own. -/
def storedResult (row : StoredRow) (proposed : String) : Except Exc Passed := do
  let differing ← PaperIdentity.differingFields row.canonical proposed
  if differing ≠ [] then .error ⟨.executionConflict, "Operation ID conflict: " ++ ", ".intercalate differing, false⟩
  return .storedResult

/-- A scope of `not_sent`. -/
def inScope {α : Type} (operation : String) (admitted identityLookup : Bool) (x : Except Exc α) : Except Exc α :=
  x.mapError (notSent operation admitted identityLookup)

def tokenError (field constraint : String) : Exc :=
  valueError (field ++ " must be a nonblank printable string of 1–64 characters (violated constraint: " ++ constraint ++ ")")

/-- Validate an opaque exact token without normalizing it. -/
def validateIdentityToken (field : String) : Option String → Except Exc Unit
  | none => .error (tokenError field "required")
  | some value =>
      if value.length < 1 then .error (tokenError field "min_length")
      else if 64 < value.length then .error (tokenError field "max_length")
      else if (Text.strip value.toList).isEmpty then .error (tokenError field "nonblank")
      else if !TradingControls.isPrintable value then .error (tokenError field "printable")
      else .ok ()

def validateToken (p : Parameters) : Except Exc Unit := do
  validateIdentityToken "operation_id" p.operationId
  validateIdentityToken "admission_epoch" p.admissionEpoch

structure Outcome where
  result : Except Exc Passed
  /-- This invocation created the row of the journal. -/
  admitted : Bool := false
  /-- The row was recorded as refused. -/
  refused : Bool := false

/-- The failure is of one of the classes that tell that nothing was sent, or what
the journal could not tell. -/
def Typed (e : Exc) : Prop := e.type = .orderNotSent ∨ e.type = .executionStore ∨ e.type = .executionConflict

/-- The caller learns that nothing was sent, and of its own row that it was admitted. -/
def Outcome.Classified (o : Outcome) : Prop :=
  ∀ e, o.result = .error e →
    (e.type = .orderNotSent ∨ (o.admitted = false ∧ Typed e)) ∧ (o.refused = true → e.admitted = true)

/-- A class that the scopes pass on. -/
def Stray (e : Exc) : Prop := e.type = .orderOutcomeUnknown ∨ e.type = .orderReceiptUnreadable ∨ e.type = .other

variable {α : Type} {operation message field : String} {e : Exc}

@[simp] theorem not_stray_value : ¬Stray (valueError message) := by
  simp [Stray, valueError]

/-- A class other than that of malformed values. -/
def NotValue (e : Exc) : Prop := e.type ≠ .value

@[simp] theorem value_not_value : ¬NotValue (valueError message) := fun h => h rfl

/-- What only refuses values raises nothing that the scopes pass on. -/
theorem not_stray_of_value {x : Except Exc α} (h : ¬Raises NotValue x) : ¬Raises Stray x := by
  refine fun hs => h (hs.mono (fun e he hv => ?_))
  rcases he with he | he | he <;> cases hv.symm.trans he

/-- To what is raised outside of the scopes a malformed value is a failure of no known class. -/
theorem untyped_of_value {x : Except Exc α} (h : ¬Raises NotValue x) :
    Raises (fun e => ¬Typed e) x ↔ ∀ a, x ≠ .ok a := by
  cases x with
  | ok a => simp
  | error e =>
      have he : e.type = .value := by
        rw [Raises.of_error] at h
        exact not_not.mp h
      simp [Typed, he]

theorem not_stray_policy : ¬Stray ⟨.tradingPolicy, message, false⟩ := by
  simp [Stray]

theorem typed_notSent {admitted identityLookup : Bool} :
    Typed (notSent operation admitted identityLookup e) ↔ ¬Stray e := by
  unfold notSent Typed Stray
  cases h : e.type with
  | executionStore => cases identityLookup <;> simp [h]
  | orderNotSent | orderOutcomeUnknown | orderReceiptUnreadable | other => simp [h]
  | executionConflict | tradingPolicy | tradingControl | value | type | runtime => simp

/-- Outside of lookups only one class is left of those that are not strays. -/
theorem notSent_admitted_iff : (notSent operation true false e).type = .orderNotSent ∧
    (notSent operation true false e).admitted = true ↔ ¬Stray e := by
  unfold notSent Stray
  cases h : e.type with
  | orderNotSent | orderOutcomeUnknown | orderReceiptUnreadable | other => simp [h]
  | executionStore => simp
  | executionConflict | tradingPolicy | tradingControl | value | type | runtime => simp

theorem raises_inScope {admitted identityLookup : Bool} {x : Except Exc α} :
    Raises (fun e => ¬Typed e) (inScope operation admitted identityLookup x) ↔ Raises Stray x := by
  rw [inScope, Raises.mapError]
  exact Raises.congr (fun e => by rw [typed_notSent, not_not])

theorem lift_ok_iff {answer : Answer α} {a : α} : answer.lift = .ok a ↔ answer = .ok a := by
  cases answer with
  | error failure => exact iff_of_false (fun h => nomatch h) (fun h => nomatch h)
  | ok b =>
      change Except.ok b = .ok a ↔ _
      simp

theorem stored_ok_iff {answer : Except String α} {a : α} : stored answer = .ok a ↔ answer = .ok a := by
  cases answer with
  | error message => exact iff_of_false (fun h => nomatch h) (fun h => nomatch h)
  | ok b =>
      change Except.ok b = .ok a ↔ _
      simp

@[simp] theorem not_stray_lift {answer : Answer α} : ¬Raises Stray answer.lift := by
  rw [Answer.lift, Raises.mapError]
  rintro ⟨⟨kind, message⟩, -, hs⟩
  cases kind <;> simp [Stray, Failure.exc, FailureClass.excType] at hs

theorem not_stray_stored {answer : Except String α} : ¬Raises Stray (stored answer) := by
  rw [stored, Raises.mapError]
  rintro ⟨message, -, hs⟩
  simp [Stray] at hs

theorem typed_stored {answer : Except String α} : ¬Raises (fun e => ¬Typed e) (stored answer) := by
  rw [stored, Raises.mapError]
  rintro ⟨message, -, hs⟩
  simp [Typed] at hs

theorem classified_ok {passed : Passed} {admitted refused : Bool} : (⟨.ok passed, admitted, refused⟩ : Outcome).Classified :=
  fun _ h => nomatch h

/-- Without a row of its own an invocation only has to tell the class. -/
theorem classified_plain {x : Except Exc Passed} :
    (⟨x, false, false⟩ : Outcome).Classified ↔ ¬Raises (fun e => ¬Typed e) x := by
  constructor
  · rintro h ⟨e, he, ht⟩
    rcases (h e he).1 with hn | ⟨-, hn⟩
    · exact ht (.inl hn)
    · exact ht hn
  · intro h e he
    refine ⟨.inr ⟨rfl, ?_⟩, fun hr => nomatch hr⟩
    by_contra ht
    exact h ⟨e, he, ht⟩

theorem classified_scope {admitted identityLookup : Bool} :
    (⟨.error (notSent operation admitted identityLookup e), false, false⟩ : Outcome).Classified ↔ ¬Stray e := by
  rw [classified_plain, Raises.of_error, not_not, typed_notSent]

/-- The refusal of an admitted operation is told as such, unless its cause strays. -/
theorem classified_refused :
    (⟨inScope operation true false (.error e), true, true⟩ : Outcome).Classified ↔ ¬Stray e := by
  rw [← @notSent_admitted_iff operation e]
  constructor
  · intro h
    obtain ⟨ht | ⟨ha, -⟩, hadmitted⟩ := h _ rfl
    · exact ⟨ht, hadmitted rfl⟩
    · cases ha
  · rintro ⟨ht, hadmitted⟩ e' he
    cases he
    exact ⟨.inl ht, fun _ => hadmitted⟩

theorem classified_unrefused (h : ¬Stray e) :
    (⟨inScope operation true false (.error e), true, false⟩ : Outcome).Classified := by
  intro e' he
  cases he
  exact ⟨.inl (notSent_admitted_iff.mpr h).1, fun hr => nomatch hr⟩

@[simp] theorem not_stray_check {ok : Bool} : ¬Raises Stray (check ok message) := by
  unfold check
  exact Raises.not_ite (Raises.of_ok ()) (by simp)

theorem not_stray_token {value : Option String} : ¬Raises Stray (validateIdentityToken field value) := by
  unfold validateIdentityToken
  cases value with
  | none => simp [tokenError]
  | some value =>
      dsimp only
      split_ifs <;> simp [tokenError]

theorem not_stray_tokens {p : Parameters} : ¬Raises Stray (validateToken p) :=
  Raises.not_bind not_stray_token (fun _ _ => not_stray_token)

theorem not_stray_write {policy : Accounts.AccountPolicy} {trdEnv : String} :
    ¬Raises Stray (policy.checkWrite operation trdEnv) := by
  refine Raises.not_ite (Raises.of_ok ()) ?_
  rw [Raises.of_error]
  exact not_stray_policy

theorem value_exact {account : String} : ¬Raises NotValue (exactAccount message account) := by
  rw [exactAccount]
  split_ifs with hdecimal hlong
  · rw [Raises.of_error]
    exact value_not_value
  · rw [Raises.of_error]
    exact value_not_value
  · exact Raises.of_ok _

theorem value_account {accId : String} : ¬Raises NotValue (Accounts.exactAccountId accId) := value_exact

theorem value_price {v : Value} : ¬Raises NotValue (decimalPrice v) := by
  cases v with
  | text s =>
      rw [decimalPrice]
      refine Raises.not_ite (by simp) ?_
      cases Text.plainDecimal s.toList with
      | none => simp
      | some d => exact Raises.not_ite (by simp) (Raises.of_ok d)
  | null | bool _ | number _ | list _ | object _ => simp [decimalPrice]

theorem not_stray_number {v : Value} : ¬Raises Stray (OrderRules.number operation field v) := by
  cases v with
  | number n => cases n <;> simp [OrderRules.number]
  | text s =>
      rw [OrderRules.number]
      cases Text.toNumeral s with
      | none => simp
      | some n => cases n <;> simp
  | null | bool _ | list _ | object _ => simp [OrderRules.number]

theorem not_stray_whole {v : Value} : ¬Raises Stray (wholeQuantity operation v) := by
  cases v with
  | text s => simp [wholeQuantity]
  | null | bool _ | number _ | list _ | object _ =>
      exact Raises.not_bind not_stray_number (fun _ _ => Raises.not_bind not_stray_check (fun _ _ => Raises.of_pure _))

theorem not_stray_rules {instrument : InstrumentFacts} {v : Value} : ¬Raises Stray (instrumentRuleSummary instrument v) := by
  refine Raises.not_bind not_stray_check (fun _ _ => Raises.not_bind not_stray_check (fun _ _ => ?_))
  refine Raises.not_ite (Raises.not_ite (Raises.of_pure _) ?_) ?_
  · exact Raises.not_bind not_stray_number (fun _ _ => Raises.of_pure _)
  · exact Raises.not_ite (Raises.of_pure _) (Raises.not_ite (Raises.of_pure _) (Raises.of_pure _))

theorem not_stray_grid {instrument : InstrumentFacts} {orderType : String} {v : Value} :
    ¬Raises Stray (onGrid operation field instrument orderType v) := by
  refine Raises.not_ite (Raises.of_ok ()) (Raises.not_bind not_stray_number (fun _ _ => ?_))
  refine Raises.not_bind not_stray_check (fun _ _ => Raises.not_ite not_stray_check ?_)
  exact Raises.not_bind not_stray_rules (fun _ _ => not_stray_check)

theorem not_stray_instrument {instrument : InstrumentFacts} {qty orderType price auxPrice : Value} :
    ¬Raises Stray (validateInstrumentOrder operation instrument qty orderType price auxPrice) := by
  refine Raises.not_bind not_stray_check (fun _ _ => Raises.not_bind not_stray_whole (fun _ _ => ?_))
  exact Raises.not_bind not_stray_rules (fun _ _ => Raises.not_bind not_stray_grid (fun _ _ => not_stray_grid))

theorem not_stray_positive {v : Value} : ¬Raises Stray (positiveInteger operation v) := by
  cases v with
  | number n =>
      cases n with
      | finite d => exact Raises.not_bind not_stray_check (fun _ _ => not_stray_check)
      | nonFinite => simp [positiveInteger]
  | null | bool _ | text _ | list _ | object _ => simp [positiveInteger]

theorem stray_overflow : Stray overflowError := .inr (.inr rfl)

/-- A price strays where it is an integer that has no float. -/
theorem finite_stray {v : Value} : Raises Stray (finiteNonNegative operation field v) ↔ tooLarge v = true := by
  cases v with
  | number n =>
      cases n with
      | finite d =>
          rw [finiteNonNegative]
          by_cases hl : tooLarge (.number (.finite d)) = true
          · rw [if_pos hl]
            exact iff_of_true (Raises.bind.mpr (.inl ((Raises.of_error _).mpr stray_overflow))) hl
          · rw [if_neg hl]
            exact iff_of_false (Raises.not_bind not_stray_check (fun _ _ => not_stray_check)) hl
      | nonFinite => simp [finiteNonNegative, tooLarge]
  | null | bool _ | text _ | list _ | object _ => simp [finiteNonNegative, tooLarge]

theorem package_stray {v : Value} : Raises Stray (finitePackagePrice operation v) ↔ tooLarge v = true := by
  cases v with
  | number n =>
      cases n with
      | finite d =>
          rw [finitePackagePrice]
          by_cases hl : tooLarge (.number (.finite d)) = true
          · rw [if_pos hl]
            exact iff_of_true (Raises.bind.mpr (.inl ((Raises.of_error _).mpr stray_overflow))) hl
          · rw [if_neg hl]
            exact iff_of_false not_stray_check hl
      | nonFinite => simp [finitePackagePrice, tooLarge]
  | null | bool _ | text _ | list _ | object _ => simp [finitePackagePrice, tooLarge]

/-- The first field that is not accepted is an integer that has no float. -/
def FieldOverflows (operation : String) (fields : List (String × Value)) : Prop :=
  ∃ before field v after, fields = before ++ (field, v) :: after ∧ finiteFields operation before = .ok () ∧
    tooLarge v = true

theorem fields_stray {fields : List (String × Value)} :
    Raises Stray (finiteFields operation fields) ↔ FieldOverflows operation fields := by
  induction fields with
  | nil =>
      refine iff_of_false (Raises.of_ok ()) ?_
      rintro ⟨before, field, v, after, h, -⟩
      cases before <;> cases h
  | cons f fields ih =>
      obtain ⟨field, v⟩ := f
      rw [finiteFields, Raises.bind, finite_stray, ih]
      constructor
      · rintro (hl | ⟨_, hv, before, field', v', after, rfl, hbefore, hl⟩)
        · exact ⟨[], field, v, fields, rfl, rfl, hl⟩
        · refine ⟨(field, v) :: before, field', v', after, rfl, ?_, hl⟩
          rw [finiteFields, hv]
          exact hbefore
      · rintro ⟨before, field', v', after, h, hbefore, hl⟩
        cases before with
        | nil =>
            cases h
            exact .inl hl
        | cons g before =>
            cases h
            obtain ⟨_, hv, hrest⟩ := Checks.bind_ok.mp hbefore
            exact .inr ⟨(), hv, before, field', v', after, rfl, hrest, hl⟩

/-- The values of an order up to the first one that is not accepted, which has no float. -/
def Overflows (operation : String) (o : OrderValues) : Prop :=
  positiveInteger operation o.qty = .ok () ∧
    (FieldOverflows operation o.fields ∨ (finiteFields operation o.fields = .ok () ∧ tooLarge o.comboPrice = true))

theorem values_stray {o : OrderValues} : Raises Stray (validateOrderValues operation o) ↔ Overflows operation o := by
  rw [validateOrderValues, Raises.bind_of_not not_stray_positive]
  constructor
  · rintro ⟨_, hqty, hr⟩
    refine ⟨hqty, ?_⟩
    rcases Raises.bind.mp hr with hr | ⟨_, hfields, hr⟩
    · exact .inl (fields_stray.mp hr)
    · rcases Raises.bind.mp hr with hr | ⟨_, -, hr⟩
      · exact .inr ⟨hfields, package_stray.mp hr⟩
      · -- The check of the price of a limit order refuses with a value.
        refine absurd hr ?_
        split
        · exact not_stray_check
        · exact Raises.of_ok ()
  · rintro ⟨hqty, h⟩
    refine ⟨(), hqty, Raises.bind.mpr ?_⟩
    rcases h with h | ⟨hfields, hl⟩
    · exact .inl (fields_stray.mpr h)
    · exact .inr ⟨(), hfields, Raises.bind.mpr (.inl (package_stray.mpr hl))⟩

theorem single_stray {o : SingleOrder} :
    Raises Stray (validateSingleOrderRequest operation o) ↔ Overflows operation o.values := by
  rw [validateSingleOrderRequest, Raises.bind]
  refine (or_iff_left ?_).trans values_stray
  rintro ⟨_, -, hr⟩
  exact Raises.not_bind not_stray_check (fun _ _ => not_stray_check) hr

/-- Access is refused with an error of its own, which the scopes do not know. -/
theorem stray_access_iff {grants : ClientAuthorization.Grants} {trdEnv accId : String} {write : Bool} :
    Raises Stray (ClientAuthorization.checkAccountAccess grants trdEnv accId write) ↔
      ClientAuthorization.accountAccessAllowed grants trdEnv accId write = false := by
  rw [ClientAuthorization.checkAccountAccess]
  cases ClientAuthorization.accountAccessAllowed grants trdEnv accId write <;>
    simp [Stray, ClientAuthorization.authorizationError]

theorem access_ok_iff {grants : ClientAuthorization.Grants} {trdEnv accId : String} {write : Bool} :
    ClientAuthorization.checkAccountAccess grants trdEnv accId write = .ok () ↔
      ClientAuthorization.accountAccessAllowed grants trdEnv accId write = true := by
  rw [ClientAuthorization.checkAccountAccess]
  cases ClientAuthorization.accountAccessAllowed grants trdEnv accId write <;> simp

theorem value_numberAllowed {n : Numeral} : ¬Raises NotValue (numberAllowed n) := by
  cases n with
  | nonFinite => simp [numberAllowed]
  | finite d => exact Raises.not_ite (by simp) (Raises.of_ok ())

mutual

theorem value_allowed : ∀ v : Value, ¬Raises NotValue (allowed v)
  | .null | .bool _ | .text _ => by simp [allowed]
  | .number _ => value_numberAllowed
  | .list vs => value_allowedAll vs
  | .object fields => value_allowedFields fields

theorem value_allowedAll : ∀ vs : List Value, ¬Raises NotValue (allowedAll vs)
  | [] => Raises.of_ok ()
  | v :: vs => Raises.not_bind (value_allowed v) (fun _ _ => value_allowedAll vs)

theorem value_allowedFields : ∀ fields : List (String × Value), ¬Raises NotValue (allowedFields fields)
  | [] => Raises.of_ok ()
  | (_, v) :: fields => Raises.not_bind (value_allowed v) (fun _ _ => value_allowedFields fields)

end

theorem value_dumps {v : Value} : ¬Raises NotValue (dumps v) :=
  Raises.not_bind (value_allowed v) (fun _ _ => Raises.of_pure _)

theorem untyped_access_iff {grants : ClientAuthorization.Grants} {trdEnv accId : String} {write : Bool} :
    Raises (fun e => ¬Typed e) (ClientAuthorization.checkAccountAccess grants trdEnv accId write) ↔
      ClientAuthorization.accountAccessAllowed grants trdEnv accId write = false := by
  rw [ClientAuthorization.checkAccountAccess]
  cases ClientAuthorization.accountAccessAllowed grants trdEnv accId write <;>
    simp [Typed, ClientAuthorization.authorizationError]

/-- Two texts of requests can always be compared, and the comparison only finds conflicts. -/
theorem storedResult_raises {P : Exc → Prop} {row : StoredRow} {proposed : String}
    {env kind : String} {account : Account} {params : List (String × Value)}
    (hP : ∀ message, ¬P ⟨.executionConflict, message, false⟩)
    (h : loads proposed = .ok (.object (PaperIdentity.readRequest env account kind params))) :
    ¬Raises P (storedResult row proposed) := by
  obtain ⟨env', kind', params', hrow⟩ := row.readable
  rw [storedResult, PaperIdentity.differingFields_eq hrow h]
  refine Raises.not_bind (Raises.of_ok _) (fun differing _ => ?_)
  refine Raises.not_ite (Raises.not_bind ?_ (fun _ _ => Raises.of_pure _)) (Raises.of_pure _)
  rw [Raises.of_error]
  exact hP _

end MoomooMcp.PreDispatch
