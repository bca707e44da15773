import MoomooMcp.WriteBoundary

namespace MoomooMcp.PaperAdmission

open Intent Json Checks OrderErrors OrderRules Accounts ClientAuthorization PreDispatch PaperIdentity PaperRequests PaperBoundary

abbrev Fields := List (String × Value)

/-- The arguments that a call of a method is bound to, defaults included. -/
inductive Bound : String → Parameters → Prop
  | place (p : Parameters) (session : String) (given : p.session = some session)
      (fields : ∀ name ∈ placeFields, ∃ v, p.others.lookup name = some v) : Bound "place_order" p
  | modify (p : Parameters) (op : String) (given : p.modifyOrderOp = some op)
      (fields : ∀ name ∈ ["order_id", "qty", "price", "adjust_limit"], ∃ v, p.others.lookup name = some v) :
      Bound "modify_order" p
  | cancel (p : Parameters) (given : p.modifyOrderOp = none) (target : ∃ v, p.others.lookup "order_id" = some v) :
      Bound "cancel_order" p

/-- `recover_paper_admission`: the row whose result is returned, if there is one. -/
def recoverAdmission (w : World) (method : String) (p : Parameters) : Except Exc (Option StoredRow) :=
  if w.configured = false ∨ Text.normalize p.trdEnv ≠ "SIMULATE" then .ok none
  else
    inScope method false true (do
      w.policy.checkWrite method "SIMULATE"
      let (kind, fields) ← paperParameters method p
      validateToken p
      schema kind fields
      let found ←
        match w.late with
        | some row => .ok (some row)
        | none => stored w.lookup
      match found with
      | some row => do
          let _ ← retry w kind fields p.accId row
          return some row
      | none => return none)

variable {w w' : World} {method env op : String} {p : Parameters} {kind : Kind} {fields : Fields} {policy : AccountPolicy}
  {row : StoredRow} {s : String} {a : Account}

theorem select_eq {names : List String} (h : ∀ name ∈ names, ∃ v, fields.lookup name = some v) :
    select fields names = .ok (names.map (fun name => (name, Value.get fields name))) := by
  induction names with
  | nil => rfl
  | cons name names ih =>
      obtain ⟨v, hv⟩ := h name List.mem_cons_self
      rw [select, Value.item_ok.mpr hv, ih (fun name' hn => h name' (List.mem_cons_of_mem _ hn)), List.map_cons, Value.get_of_lookup hv]
      rfl

theorem place_agrees {session : String} (hmethod : Text.normalize p.trdEnv = "SIMULATE") (hgiven : p.session = some session)
    (hfields : ∀ name ∈ placeFields, ∃ v, p.others.lookup name = some v) :
    paperParameters "place_order" p = paperRequest policy "place_order" p := by
  have hsession : normalizeOrderSession session "SIMULATE" = normalizeOrderSession session p.trdEnv := by
    unfold normalizeOrderSession
    rw [hmethod]
    rfl
  rw [paperParameters, if_pos rfl, paperRequest, if_pos rfl, placeOrder, select_eq hfields, hgiven, Option.getD_some, hsession]
  rfl

theorem cancel_agrees (hgiven : p.modifyOrderOp = none) (htarget : ∃ v, p.others.lookup "order_id" = some v) :
    paperParameters "cancel_order" p = paperRequest policy "cancel_order" p := by
  obtain ⟨v, hv⟩ := htarget
  rw [paperParameters, if_neg (by decide), paperRequest, if_neg (by decide), if_neg (by decide), if_pos rfl, cancelOrder, hgiven,
    Option.getD_none, Value.item_ok.mpr hv, Value.get_of_lookup hv]
  rfl

/-- What both paths do with the operation of a modification. -/
def mapped (op : String) (p : Parameters) : Except Exc (Kind × Fields) :=
  if op = "NORMAL" then
    .ok (.modify, [("order_id", Value.get p.others "order_id"), ("adjust_limit", Value.get p.others "adjust_limit")] ++
      given p.others "qty" ++ given p.others "price")
  else if op = "CANCEL" ∧ (Value.get p.others "qty").isNull = true ∧ (Value.get p.others "price").isNull = true ∧
      nonZero (Value.get p.others "adjust_limit") = false then
    .ok (.cancel, [("order_id", Value.get p.others "order_id")])
  else .error (valueError "")

theorem pure_ok {α : Type} {v : α} : (pure v : Except Exc α) = .ok v := rfl

theorem ok_bind {α β : Type} {v : α} {rest : α → Except Exc β} : (Except.ok v >>= rest) = rest v := rfl

theorem admission_mapped {op : String} (hgiven : p.modifyOrderOp = some op)
    (hfields : ∀ name ∈ ["order_id", "qty", "price", "adjust_limit"], ∃ v, p.others.lookup name = some v) (r : Kind × Fields) :
    paperParameters "modify_order" p = .ok r ↔ mapped op p = .ok r := by
  obtain ⟨order, horder⟩ := hfields "order_id" (by decide)
  obtain ⟨limit, hlimit⟩ := hfields "adjust_limit" (by decide)
  rw [paperParameters, if_neg (by decide), mapped, hgiven, Option.getD_some, Value.item_ok.mpr horder, Value.item_ok.mpr hlimit,
    Value.get_of_lookup horder, Value.get_of_lookup hlimit]
  by_cases hnormal : op = "NORMAL"
  · subst hnormal
    rfl
  · simp only [check_bind_ok, ok_bind, hnormal, if_false]
    by_cases hcancel : op = "CANCEL"
    · subst hcancel
      by_cases hpatch : (Value.get p.others "qty").isNull = true ∧ (Value.get p.others "price").isNull = true ∧
          nonZero limit = false
      · simp [hpatch, pure_ok]
      · simp [hpatch]
    · simp [hcancel]

theorem service_mapped {op : String} (hwrite : policy.checkWrite "modify_order" "SIMULATE" = .ok ())
    (hgiven : p.modifyOrderOp = some op) (r : Kind × Fields) :
    paperRequest policy "modify_order" p = .ok r ↔ mapped op p = .ok r := by
  rw [paperRequest, if_neg (by decide), if_pos rfl, modifyOrder, hwrite, hgiven, Option.getD_some, mapped]
  by_cases hnormal : op = "NORMAL"
  · subst hnormal
    rfl
  · simp only [check_bind_ok, ok_bind, hnormal, if_false]
    by_cases hcancel : op = "CANCEL"
    · subst hcancel
      by_cases hpatch : (Value.get p.others "qty").isNull = true ∧ (Value.get p.others "price").isNull = true ∧
          nonZero (Value.get p.others "adjust_limit") = false
      · simp [hpatch, pure_ok]
      · simp [hpatch]
    · simp [hcancel]

/-- What the service hands on is what the admission reads. -/
theorem accepted_agrees {r : Kind × Fields} (hb : Bound method p) (henv : Text.normalize p.trdEnv = "SIMULATE")
    (h : paperRequest policy method p = .ok r) : paperParameters method p = .ok r := by
  cases hb with
  | place _ session hgiven hfields => rwa [place_agrees henv hgiven hfields]
  | modify _ op hgiven hfields =>
      have hwrite : policy.checkWrite "modify_order" "SIMULATE" = .ok () := by
        rw [paperRequest, if_neg (by decide), if_pos rfl] at h
        obtain ⟨_, hwrite, -⟩ := bind_ok.mp h
        exact hwrite
      exact (admission_mapped hgiven hfields r).mpr ((service_mapped hwrite hgiven r).mp h)
  | cancel _ hgiven htarget => rwa [cancel_agrees hgiven htarget]

/-- What the service refuses in a deployment that may write, the admission refuses. -/
theorem refused_agrees (hb : Bound method p) (henv : Text.normalize p.trdEnv = "SIMULATE")
    (hwrite : policy.checkWrite "modify_order" "SIMULATE" = .ok ()) (h : ∀ r, paperRequest policy method p ≠ .ok r) :
    ∀ r, paperParameters method p ≠ .ok r := by
  cases hb with
  | place _ session hgiven hfields => rwa [place_agrees henv hgiven hfields]
  | modify _ op hgiven hfields =>
      intro r hr
      exact h r ((service_mapped hwrite hgiven r).mpr ((admission_mapped hgiven hfields r).mp hr))
  | cancel _ hgiven htarget => rwa [cancel_agrees hgiven htarget]

theorem keyed_get (hkeyed : ∀ f ∈ fields, Keyed f.2) (name : String) : Keyed (Value.get fields name) := by
  unfold Value.get
  cases hv : fields.lookup name with
  | none => exact trivial
  | some v =>
      obtain ⟨before, after, rfl, -⟩ := List.lookup_eq_some_iff.mp hv
      exact hkeyed (name, v) (by simp)

theorem keyed_named (hkeyed : ∀ f ∈ fields, Keyed f.2) {names : List String} (hnames : names.Nodup) :
    Keyed (.object (names.map (fun name => (name, Value.get fields name)))) := by
  refine ⟨by simpa [keys, Function.comp_def] using hnames, keyedFields_iff.mpr (fun f hf => ?_)⟩
  obtain ⟨name, -, rfl⟩ := List.mem_map.mp hf
  exact keyed_get hkeyed name

/-- The parameters that are handed on are a dictionary, as those that came are. -/
theorem keyed_request (hkeyed : ∀ f ∈ p.others, Keyed f.2) (h : paperRequest policy method p = .ok (kind, fields)) :
    Keyed (.object fields) := by
  have hcancel : Keyed (.object [("order_id", Value.get p.others "order_id")]) :=
    ⟨List.nodup_singleton _, keyed_get hkeyed "order_id", trivial⟩
  unfold paperRequest at h
  split_ifs at h
  · obtain ⟨_, -, h⟩ := bind_ok.mp h
    cases h
    exact keyed_named hkeyed (by decide)
  · obtain ⟨_, -, h⟩ := bind_ok.mp h
    obtain ⟨_, -, h⟩ := bind_ok.mp h
    obtain ⟨_, -, h⟩ := bind_ok.mp h
    split_ifs at h
    · cases h
      exact hcancel
    · cases h
      unfold given
      split_ifs
      · exact @keyed_named p.others hkeyed ["order_id", "adjust_limit"] (by decide)
      · exact @keyed_named p.others hkeyed ["order_id", "adjust_limit", "price"] (by decide)
      · exact @keyed_named p.others hkeyed ["order_id", "adjust_limit", "qty"] (by decide)
      · exact @keyed_named p.others hkeyed ["order_id", "adjust_limit", "qty", "price"] (by decide)
  · cases h
    exact hcancel
  · obtain ⟨_, -, h⟩ := bind_ok.mp h
    cases h

/-- A request differs in nothing from itself. -/
theorem differingFields_self (hp : Keyed (.object fields)) (hs : canonicalizeRequest env a op fields = .ok s) :
    differingFields s s = .ok [] := by
  obtain ⟨p', l, -, hregular, hl, hload⟩ := canonicalizeRequest_ok hp hs
  have hlr := (stored_params hregular hl).1
  rw [differingFields_eq hload hload, header_eq_nil.mpr ⟨rfl, rfl, rfl⟩, List.nil_append, Except.ok.injEq,
    List.filter_eq_nil_iff]
  intro k _ hk
  have hvalues : ∀ v ∈ l.lookup k, Regular v := fun v hv =>
    regularFields_iff.mp hlr.2 (k, v) ((mem_iff_lookup hlr.1 v).mpr hv)
  exact (differs_iff hvalues hvalues).mp hk rfl

/-- The row that an admitted call creates. -/
structure AdmittedRow (w : World) (kind : Kind) (fields : Fields) (p : Parameters) (row : StoredRow) : Prop where
  account : paperAccount w.policy w.accounts.lift w.grants p.accId = .ok row.account
  canonical : canonicalizeRequest "SIMULATE" row.account (opType kind) fields = .ok row.canonical

/-- The account of a new operation is the one that is named, if any is, and may be traded. -/
theorem paperAccount_ok {accounts : Except Exc (List AccountRow)} {grants : Grants} {accId : String}
    (h : paperAccount policy accounts grants accId = .ok a) : ∃ requested, exactAccountId accId = .ok requested ∧
      (if requested = 0 then a else requested) = a ∧ accountAccessAllowed grants "SIMULATE" (toString a) true = true := by
  obtain ⟨requested, hrequested, h⟩ := bind_ok.mp h
  refine ⟨requested, hrequested, ?_⟩
  by_cases h0 : requested = 0
  · rw [if_neg (not_not.mpr h0)] at h
    obtain ⟨rows, -, h⟩ := bind_ok.mp h
    dsimp only at h
    rw [if_neg (not_not.mpr h0)] at h
    rw [if_pos h0]
    refine ⟨rfl, ?_⟩
    split at h
    · next account hids =>
        cases h
        have hmem : a ∈ ((rows.filter (paperEligible policy grants)).map (·.accId)).dedup := by
          rw [hids]
          exact List.mem_singleton_self a
        obtain ⟨r, hr, rfl⟩ := List.mem_map.mp (List.mem_dedup.mp hmem)
        have heligible := (List.mem_filter.mp hr).2
        rw [paperEligible, Bool.and_eq_true] at heligible
        exact heligible.2
    · cases h
  · rw [if_pos h0] at h
    rw [if_neg h0]
    by_cases hl : requested ∈ policy.simulateAllowlist
    · rw [if_neg (not_not.mpr hl)] at h
      obtain ⟨_, haccess, h⟩ := bind_ok.mp h
      obtain ⟨rows, -, h⟩ := bind_ok.mp h
      dsimp only at h
      rw [if_pos h0] at h
      split_ifs at h
      cases h
      exact ⟨rfl, access_ok_iff.mp haccess⟩
    · rw [if_pos hl] at h
      obtain ⟨_, h, -⟩ := bind_ok.mp h
      cases h

theorem checkWrite_operation {operation operation' trdEnv : String} (h : policy.checkWrite operation trdEnv = .ok ()) :
    policy.checkWrite operation' trdEnv = .ok () := by
  unfold AccountPolicy.checkWrite at h ⊢
  dsimp only at h ⊢
  by_cases hw : policy.writable (Text.normalize trdEnv) = true
  · rw [if_pos hw]
  · rw [if_neg hw] at h
    cases h

theorem dispatch_admitted (h : (unknownOperation w kind fields p).admitted = true) :
    admission w kind fields p = .ok none := by
  unfold unknownOperation at h
  cases ha : admission w kind fields p with
  | error e =>
      rw [ha] at h
      cases h
  | ok found =>
      cases found with
      | none => rfl
      | some passed =>
          rw [ha] at h
          cases h

theorem call_admitted (h : (call w method p).admitted = true) :
    ∃ kind fields, Entered w method p kind fields ∧ Reserved w kind fields p := by
  unfold call at h
  cases hgiven : paperRequest w.policy method p with
  | error e =>
      rw [hgiven] at h
      cases h
  | ok request =>
      obtain ⟨kind, fields⟩ := request
      rw [hgiven] at h
      change (paperExecute w kind fields p).admitted = true at h
      unfold paperExecute at h
      cases hopening : opening w kind with
      | error e =>
          rw [hopening] at h
          cases h
      | ok _ =>
          rw [hopening] at h
          change (execute w kind fields p).admitted = true at h
          unfold execute at h
          cases hfront : front w kind fields p with
          | error e =>
              rw [hfront] at h
              cases h
          | ok _ =>
              rw [hfront] at h
              refine ⟨kind, fields, ⟨hgiven, (opening_ok_iff.mp hopening).2, hfront⟩, ?_⟩
              cases hlate : w.late with
              | some row =>
                  rw [hlate] at h
                  cases h
              | none =>
                  rw [hlate] at h
                  cases hlookup : w.lookup with
                  | error message =>
                      rw [hlookup] at h
                      cases h
                  | ok found =>
                      rw [hlookup] at h
                      cases found with
                      | some row => cases h
                      | none => exact (new_ok_none_iff.mp (admission_ok_none_iff.mp (dispatch_admitted h)).2).1

/-- The row of an admitted call, as it is then found: the same configuration and client. -/
structure Found (w w' : World) (row : StoredRow) : Prop where
  policy : w'.policy = w.policy
  grants : w'.grants = w.grants
  configured : w'.configured = w.configured
  row : w'.late = some row ∨ (w'.late = none ∧ w'.lookup = .ok (some row))

theorem recovered (henv : Text.normalize p.trdEnv = "SIMULATE") (hb : Bound method p) (hkeyed : ∀ f ∈ p.others, Keyed f.2)
    (he : Entered w method p kind fields) (hrow : AdmittedRow w kind fields p row) (hf : Found w w' row) :
    recoverAdmission w' method p = .ok (some row) := by
  obtain ⟨_, hwrite, hchecked⟩ := bind_ok.mp he.checked
  obtain ⟨_, htoken, hschema⟩ := bind_ok.mp hchecked
  have hconfigured : ¬(w'.configured = false ∨ Text.normalize p.trdEnv ≠ "SIMULATE") := by
    rw [hf.configured, he.configured, henv]
    simp
  obtain ⟨requested, hrequested, haccount, haccess⟩ := paperAccount_ok hrow.account
  have hretry : retry w' kind fields p.accId row = .ok .storedResult := by
    refine bind_ok.mpr ⟨requested, hrequested, bind_ok.mpr ⟨(), ?_, bind_ok.mpr ⟨row.canonical, ?_, ?_⟩⟩⟩
    · rw [hf.grants]
      exact access_ok_iff.mpr haccess
    · rw [haccount]
      exact hrow.canonical
    · rw [storedResult, differingFields_self (keyed_request hkeyed he.given) hrow.canonical]
      rfl
  rw [recoverAdmission, if_neg hconfigured, hf.policy, checkWrite_operation hwrite, accepted_agrees hb henv he.given]
  simp only [ok_bind]
  rw [htoken]
  simp only [ok_bind]
  rw [hschema]
  simp only [ok_bind]
  rcases hf.row with h | ⟨h, hlookup⟩
  · rw [h]
    dsimp only
    rw [hretry]
    rfl
  · have hstored : stored w'.lookup = .ok (some row) := stored_ok_iff.mpr hlookup
    rw [h]
    dsimp only
    rw [hstored]
    simp only [ok_bind]
    rw [hretry]
    rfl

/-- Admission and execution read the same paper request: what is accepted is mapped
alike, what is refused by the rules of the operation is refused by both, and the row of
an admitted call is its result. -/
theorem admission_agrees (hb : Bound method p) (henv : Text.normalize p.trdEnv = "SIMULATE")
    (hkeyed : ∀ f ∈ p.others, Keyed f.2) :
    (∀ policy r, paperRequest policy method p = .ok r → paperParameters method p = .ok r) ∧
      (∀ policy : AccountPolicy, policy.checkWrite "modify_order" "SIMULATE" = .ok () →
        (∀ r, paperRequest policy method p ≠ .ok r) → ∀ r, paperParameters method p ≠ .ok r) ∧
      ∀ w : World, (call w method p).admitted = true → ∃ kind fields, paperParameters method p = .ok (kind, fields) ∧
        (∃ row, AdmittedRow w kind fields p row) ∧
        ∀ row w', AdmittedRow w kind fields p row → Found w w' row → recoverAdmission w' method p = .ok (some row) := by
  refine ⟨fun policy r => accepted_agrees hb henv, fun policy => refused_agrees hb henv, fun w h => ?_⟩
  obtain ⟨kind, fields, hentered, hreserved⟩ := call_admitted h
  obtain ⟨account, haccount⟩ := hreserved.account
  obtain ⟨s, hs⟩ : ∃ s, canonicalizeRequest "SIMULATE" account (opType kind) fields = .ok s :=
    written_iff.mpr hreserved.written
  obtain ⟨f, l, -, -, -, hl⟩ := canonicalizeRequest_loads hs
  refine ⟨kind, fields, accepted_agrees hb henv hentered.given, ?_, fun row w' hrow hf => recovered henv hb hkeyed hentered hrow hf⟩
  exact ⟨⟨account, s, _, _, _, hl⟩, haccount, hs⟩

/-- The order that a paper deployment admits is found again. -/
theorem order_recovered : ∃ row, recoverAdmission { WriteBoundary.paperWorld with lookup := .ok (some row) } "place_order"
    { WriteBoundary.order 3 with session := some "N/A" } = .ok (some row) := by
  have hadmitted : (call WriteBoundary.paperWorld "place_order"
      { WriteBoundary.order 3 with session := some "N/A" }).admitted = true := by decide +kernel
  have hbound : Bound "place_order" { WriteBoundary.order 3 with session := some "N/A" } := by
    refine .place _ "N/A" rfl (fun name hname => ?_)
    simp only [placeFields, List.mem_cons, List.not_mem_nil, or_false] at hname
    rcases hname with rfl | rfl | rfl | rfl | rfl | rfl | rfl | rfl | rfl | rfl | rfl | rfl <;> exact ⟨_, rfl⟩
  have hkeyed : ∀ f ∈ (WriteBoundary.order 3).others, Keyed f.2 := by
    rw [← keyedFields_iff]
    exact ⟨trivial, trivial, trivial, trivial, trivial, trivial, trivial, trivial, trivial, trivial, trivial, trivial, trivial⟩
  obtain ⟨kind, fields, -, ⟨row, hrow⟩, hfound⟩ := (admission_agrees hbound (by decide) hkeyed).2.2 _ hadmitted
  exact ⟨row, hfound row _ hrow ⟨rfl, rfl, rfl, .inr ⟨rfl, rfl⟩⟩⟩

end MoomooMcp.PaperAdmission
