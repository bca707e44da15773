import MoomooMcp.Approvals
import MoomooMcp.ReviewedOrders

namespace MoomooMcp.ApprovedExecution

open Intent Checks OrderRules OrderContract Accounts PreDispatch TradingControls TradePreparation TradeExecution
open Approvals ReviewedOrders

variable {method : String} {p p' q : Parameters} {env : Environment} {approvalId : Option RequestId} {st : Store}
  {db : Database} {w : TradePreparation.World} {x : TradeExecution.World}

theorem ofText_eq (h : Environment.ofText p.trdEnv = some env) : Text.normalize p.trdEnv = env.text := by
  unfold Environment.ofText at h
  split_ifs at h with hreal hpaper <;> cases h
  · exact hreal
  · exact hpaper

theorem normalize_text : Text.normalize env.text = env.text := by
  cases env <;> decide +kernel

/-- The name that a session is given by. -/
theorem session_documented {session trdEnv selected : String} (h : normalizeOrderSession session trdEnv = .ok selected) :
    ∃ name ∈ documentedSessions, normalizeOrderSession session "REAL" = .ok name ∧
      (Text.normalize trdEnv = "SIMULATE" → name = "N/A" ∨ name = "RTH") ∧
      (Text.normalize trdEnv ≠ "SIMULATE" → selected = name) := by
  unfold normalizeOrderSession at h ⊢
  dsimp only at h ⊢
  generalize (if Text.normalize session = "NONE" then "N/A" else Text.normalize session) = name at h ⊢
  rw [if_neg (show ¬Text.normalize "REAL" = "SIMULATE" by decide +kernel)]
  split_ifs at h with hname hpaper hscope
  · exact ⟨name, hname, if_neg (not_not.mpr hname), fun _ => hscope, fun hne => absurd hpaper hne⟩
  · exact ⟨name, hname, if_neg (not_not.mpr hname), fun hp => absurd hp hpaper, fun _ => (Except.ok.inj h).symm⟩

theorem documented_selected {name : String} (h : name ∈ documentedSessions) : normalizeOrderSession name "REAL" = .ok name := by
  have hall : ∀ name ∈ documentedSessions, normalizeOrderSession name "REAL" = .ok name := by decide +kernel
  exact hall name h

/-- The session that a preparation binds is the one that was asked for. -/
theorem canonicalSession_bound {session : Option String} {selected : String}
    (h : normalizeOrderSession (session.getD "N/A") env.text = .ok selected) :
    canonicalSession env.text (some (if env.text = "REAL" then selected else "N/A")) = canonicalSession env.text session := by
  obtain ⟨name, hname, hreal, hpaper, hother⟩ := session_documented h
  have hdefault : normalizeOrderSession "N/A" "REAL" = .ok "N/A" := documented_selected (by decide)
  have hgiven : canonicalSession env.text session =
      .ok (if name = "N/A" ∨ (env.text = "SIMULATE" ∧ name = "RTH") then none else some name) := by
    cases session with
    | none =>
        cases hreal.symm.trans hdefault
        rfl
    | some s => exact ok_bind hreal _
  rw [hgiven]
  rw [normalize_text] at hpaper hother
  cases env with
  | simulate =>
      rw [if_pos ((hpaper rfl).imp_right (fun hn => ⟨rfl, hn⟩)), if_neg (show ¬Environment.simulate.text = "REAL" by decide)]
      exact ok_bind hdefault _
  | real =>
      rw [hother (by decide), if_pos (show Environment.real.text = "REAL" from rfl)]
      exact ok_bind (documented_selected hname) _

/-- What the parameters of a method are bound to. -/
inductive Bound (method : String) (p : Parameters) : Parameters → Prop
  | modified (hmodify : method = "modify_order") :
      Bound method p { p with trdEnv := Text.normalize p.trdEnv, modifyOrderOp := p.modifyOrderOp.map Text.normalize }
  | placed (selected : String) (hplace : method = "place_order")
      (hselected : normalizeOrderSession (p.session.getD "N/A") (Text.normalize p.trdEnv) = .ok selected) :
      Bound method p { p with
        trdEnv := Text.normalize p.trdEnv
        session := some (if Text.normalize p.trdEnv = "REAL" then selected else "N/A") }
  | other (hmodify : method ≠ "modify_order") (hplace : method ≠ "place_order") :
      Bound method p { p with trdEnv := Text.normalize p.trdEnv }

theorem bound_iff : boundParameters method p = .ok q ↔
    (method ∈ mutations ∧ (p.others.lookup "approval_id").isNone = true) ∧ Bound method p q := by
  unfold boundParameters
  rw [check_bind_ok, check_bind_ok, List.contains_iff_mem, and_assoc]
  refine and_congr_right (fun _ => and_congr_right (fun _ => ?_))
  dsimp only
  by_cases hmodify : method = "modify_order"
  · rw [if_pos hmodify]
    constructor
    · intro h
      rw [← Except.ok.inj h]
      exact .modified hmodify
    · rintro (_ | ⟨_, hplace, _⟩ | ⟨hno, _⟩)
      · rfl
      · exact absurd (hmodify.symm.trans hplace) (by decide)
      · exact absurd hmodify hno
  · rw [if_neg hmodify]
    by_cases hplace : method = "place_order"
    · rw [if_pos hplace, bind_ok]
      constructor
      · rintro ⟨selected, hselected, h⟩
        rw [← Except.ok.inj h]
        exact .placed selected hplace hselected
      · rintro (hno | ⟨selected, _, hselected⟩ | ⟨_, hno⟩)
        · exact absurd hno hmodify
        · exact ⟨selected, hselected, rfl⟩
        · exact absurd hplace hno
    · rw [if_neg hplace]
      constructor
      · intro h
        rw [← Except.ok.inj h]
        exact .other hmodify hplace
      · rintro (hno | ⟨_, hno, _⟩ | _)
        · exact absurd hno hmodify
        · exact absurd hno hplace
        · rfl

theorem normalize_op (op : Option String) : (op.map Text.normalize).map Text.normalize = op.map Text.normalize := by
  rw [Option.map_map]
  exact congrFun (congrArg Option.map (funext Text.normalize_normalize)) op

/-- What a preparation binds, beside the spelling of the parameters that route the request. -/
theorem bound_ok (h : boundParameters method p = .ok q) (henv : Environment.ofText p.trdEnv = some env) :
    ∃ op session, q = { p with trdEnv := env.text, modifyOrderOp := op, session := session } ∧
      op.map Text.normalize = p.modifyOrderOp.map Text.normalize ∧
      canonicalSession env.text session = canonicalSession env.text p.session := by
  have htext := ofText_eq henv
  cases (bound_iff.mp h).2 with
  | modified => exact ⟨_, _, by rw [htext], normalize_op _, rfl⟩
  | placed selected _ hselected =>
      rw [htext] at hselected ⊢
      exact ⟨_, _, rfl, rfl, canonicalSession_bound hselected⟩
  | other => exact ⟨_, _, by rw [htext], rfl, rfl⟩

/-- A request and the one that is prepared for it have the same canonical intent. -/
theorem intent_bound (h : boundParameters method p = .ok q) (henv : Environment.ofText p.trdEnv = some env) (accId : String) :
    canonicalIntent method { p with trdEnv := env.text, accId := accId } = canonicalIntent method { q with accId := accId } := by
  obtain ⟨op, session, rfl, hop, hsession⟩ := bound_ok h henv
  simp only [canonicalIntent, canonicalFields, hop, hsession]

/-- What was stored for a request that was accepted. -/
structure Accepted (w : TradePreparation.World) (p : Parameters) (row : Prepared) : Prop where
  bound : boundParameters row.method { p with accId := row.parameters.accId } = .ok row.parameters
  canonical : canonicalIntent row.method row.parameters = .ok row.canonical
  contract : reviewedContract w row.method row.parameters = .ok row.review.contract

theorem bound_account (h : boundParameters method p = .ok q) (accId : String) :
    boundParameters method { p with accId := accId } = .ok { q with accId := accId } := by
  obtain ⟨hgiven, hbound⟩ := bound_iff.mp h
  refine bound_iff.mpr ⟨hgiven, ?_⟩
  cases hbound with
  | modified hmodify => exact .modified hmodify
  | placed selected hplace hselected => exact .placed selected hplace hselected
  | other hmodify hplace => exact .other hmodify hplace

theorem preparedParameters_ok (h : preparedParameters w st method p = .ok q) :
    boundParameters method { p with accId := q.accId } = .ok q := by
  unfold preparedParameters at h
  by_cases hconfigured : w.configured = true
  · rw [hconfigured] at h
    obtain ⟨request, hrequest, h⟩ := bind_ok.mp h
    obtain ⟨_, -, h⟩ := bind_ok.mp h
    obtain ⟨_, -, h⟩ := bind_ok.mp h
    obtain ⟨account, -, h⟩ := bind_ok.mp h
    obtain ⟨_, -, h⟩ := bind_ok.mp h
    cases h
    exact bound_account hrequest (toString account)
  · rw [Bool.eq_false_iff.mpr hconfigured] at h
    cases h

theorem prepare_ok {fault : Bool} {now : ℚ} {identifier : RequestId} {review : Review} {ttl : ℤ} {row : Prepared}
    {x : Store × Database} (h : prepare st db fault now identifier method p review ttl = (.ok row, x)) :
    row.requestId = identifier ∧ row.method = method ∧ row.parameters = p ∧ row.review = review ∧
      canonicalIntent method p = .ok row.canonical := by
  unfold prepare at h
  split at h
  · cases h
  · split at h
    · cases h
    · next canonical hcanonical =>
        split at h
        · cases h
        · rcases transact_cases h with ⟨⟨_, he⟩, -⟩ | ⟨_, hrow, -, hbody⟩
          · cases he
          · dsimp only at hbody
            split at hbody
            · cases hrow
              obtain ⟨rfl, -⟩ := Prod.mk.inj (Except.ok.inj hbody)
              exact ⟨rfl, rfl, rfl, rfl, hcanonical⟩
            · cases hbody

theorem prepareRequest_ok {fault : Bool} {now : ℚ} {identifier : RequestId} {ttl : ℤ} {row : Prepared}
    {x : Store × Database} (h : prepareRequest w st db fault now identifier method p ttl = (.ok row, x)) :
    row.requestId = identifier ∧ row.method = method ∧ Accepted w p row := by
  unfold prepareRequest at h
  dsimp only at h
  split at h
  · cases h
  · next request found hfound =>
      obtain ⟨q, hq, hfound⟩ := bind_ok.mp hfound
      obtain ⟨found', hreview, hfound⟩ := bind_ok.mp hfound
      cases hfound
      obtain ⟨hid, hmethod, hparameters, hrow, hcanonical⟩ := prepare_ok h
      obtain ⟨contract, hcontract, hreview⟩ := bind_ok.mp hreview
      obtain ⟨evidence, -, hreview⟩ := bind_ok.mp hreview
      cases hreview
      subst hmethod
      refine ⟨hid, rfl, ?_, ?_, ?_⟩
      · rw [hparameters]
        exact preparedParameters_ok hq
      · rw [hparameters]
        exact hcanonical
      · rw [hparameters, hrow]
        exact hcontract

/-- A session that is bound is bound to itself. -/
theorem session_again {session trdEnv selected : String} (h : normalizeOrderSession session trdEnv = .ok selected) :
    ∃ again, normalizeOrderSession (if trdEnv = "REAL" then selected else "N/A") trdEnv = .ok again ∧
      (if trdEnv = "REAL" then again else "N/A") = if trdEnv = "REAL" then selected else "N/A" := by
  by_cases hreal : trdEnv = "REAL"
  · subst hreal
    obtain ⟨name, hname, -, -, hother⟩ := session_documented h
    rw [if_pos rfl, hother (by decide +kernel)]
    exact ⟨name, documented_selected hname, rfl⟩
  · rw [if_neg hreal]
    have hdefault : (if Text.normalize "N/A" = "NONE" then "N/A" else Text.normalize "N/A") = "N/A" := by decide +kernel
    unfold normalizeOrderSession
    dsimp only
    rw [hdefault, if_neg (by decide)]
    split
    · exact ⟨_, if_pos (.inl rfl), rfl⟩
    · exact ⟨_, rfl, rfl⟩

/-- What is prepared is bound already. -/
theorem bound_again (h : boundParameters method p = .ok q) : boundParameters method q = .ok q := by
  obtain ⟨hgiven, hbound⟩ := bound_iff.mp h
  have henv := Text.normalize_normalize p.trdEnv
  cases hbound with
  | modified hmodify =>
      refine bound_iff.mpr ⟨hgiven, ?_⟩
      have hagain := Bound.modified (p := { p with
        trdEnv := Text.normalize p.trdEnv, modifyOrderOp := p.modifyOrderOp.map Text.normalize }) hmodify
      rw [henv, normalize_op] at hagain
      exact hagain
  | placed selected hplace hselected =>
      obtain ⟨again, hnormal, hsame⟩ := session_again hselected
      refine bound_iff.mpr ⟨hgiven, ?_⟩
      have hagain := @Bound.placed method { p with
        trdEnv := Text.normalize p.trdEnv
        session := some (if Text.normalize p.trdEnv = "REAL" then selected else "N/A") } again hplace
      rw [henv, Option.getD_some, hsame] at hagain
      exact hagain hnormal
  | other hmodify hplace =>
      refine bound_iff.mpr ⟨hgiven, ?_⟩
      have hagain := Bound.other (p := { p with trdEnv := Text.normalize p.trdEnv }) hmodify hplace
      rw [henv] at hagain
      exact hagain

theorem bound_others (h : boundParameters method p = .ok q) : q.others = p.others := by
  cases (bound_iff.mp h).2 <;> rfl

theorem bound_modify (h : boundParameters "modify_order" p = .ok q) : q.modifyOrderOp = p.modifyOrderOp.map Text.normalize := by
  cases (bound_iff.mp h).2 with
  | modified => rfl
  | placed _ hplace => exact absurd hplace (by decide)
  | other hmodify => exact absurd rfl hmodify

/-- Between a preparation and an execution neither the facts of an instrument nor the
order there is have changed. The caps are those of one configuration. -/
structure Unchanged (w : TradePreparation.World) (x : TradeExecution.World) : Prop where
  valued : w.valued = x.real.valued
  real : SameAnswers w.instruments x.real.instruments
  paper : SameAnswers w.instruments x.paper.instruments
  realTarget : ∀ target target', w.fetchOrder = .ok target → x.real.fetchOrder = .ok target' → target = target'
  paperTarget : ∀ target target', w.fetchOrder = .ok target → x.paper.fetchOrder = .ok target' → target = target'

variable {contract : Option Contract} {found : Presented}

theorem cancel_contract (h : mutationReview w "cancel_order" q = .ok contract) : contract = none := by
  obtain ⟨target, -, h⟩ := bind_ok.mp h
  rw [exposes, if_neg (by simp)] at h
  exact (Except.ok.inj h).symm

theorem real_agrees (hbound : boundParameters method p = .ok q)
    (hreview : reviewedContract w method q = .ok contract) (hexec : Real.presented x.real p method = .ok (some found))
    (hunchanged : Unchanged w x) : found.facts.mapM contractView = .ok contract := by
  obtain ⟨_, -, hexec⟩ := bind_ok.mp hexec
  obtain ⟨kind, -, hexec⟩ := bind_ok.mp hexec
  obtain ⟨late, -, hexec⟩ := bind_ok.mp hexec
  by_cases hlate : late.isSome = true
  · rw [if_pos hlate] at hexec
    cases hexec
  rw [if_neg hlate] at hexec
  obtain ⟨again, -, hexec⟩ := bind_ok.mp hexec
  by_cases hagain : again.isSome = true
  · rw [if_pos hagain] at hexec
    cases hexec
  rw [if_neg hagain] at hexec
  obtain ⟨market, -, hexec⟩ := bind_ok.mp hexec
  obtain ⟨account, -, hexec⟩ := bind_ok.mp hexec
  obtain ⟨_, -, hexec⟩ := bind_ok.mp hexec
  obtain ⟨inserted, -, hexec⟩ := bind_ok.mp hexec
  by_cases hinserted : inserted.isSome = true
  · rw [if_pos hinserted] at hexec
    cases hexec
  rw [if_neg hinserted] at hexec
  obtain ⟨found', hcall, hexec⟩ := bind_ok.mp hexec
  obtain ⟨_, -, hexec⟩ := bind_ok.mp hexec
  cases hexec
  have hothers := bound_others hbound
  have hmethod := (bound_iff.mp hbound).1.1
  simp only [mutations, List.mem_cons, List.not_mem_nil, or_false] at hmethod
  rcases hmethod with rfl | rfl | rfl | rfl
  · obtain ⟨c, hc, rfl⟩ := map_ok.mp hreview
    exact placeOrder_agrees hc hcall hothers hunchanged.real
  · obtain ⟨c, hc, rfl⟩ := map_ok.mp hreview
    exact placeComboOrder_agrees hc hcall hothers hunchanged.valued hunchanged.real
  · refine modifyOrder_agrees hreview hcall hothers ?_ hunchanged.real hunchanged.realTarget
    rw [bound_modify hbound, RealBoundary.requestedOp]
    cases p.modifyOrderOp with
    | none => decide +kernel
    | some op => rfl
  · rw [cancel_contract hreview]
    obtain ⟨_, -, hcall⟩ := bind_ok.mp hcall
    obtain ⟨_, -, hcall⟩ := bind_ok.mp hcall
    obtain ⟨account, -, hcall⟩ := bind_ok.mp hcall
    cases hcall
    rfl

/-- The simulated modifications whose contract the two paths read differently. -/
def Diverges (w : TradePreparation.World) (method : String) (p : Parameters) : Prop :=
  Environment.ofText p.trdEnv = some .simulate ∧ method = "modify_order" ∧
    p.modifyOrderOp.map Text.normalize = some "NORMAL" ∧ ∃ target, w.fetchOrder = .ok target ∧ ¬Alike p target

/-- What a paper mutation that gets to the controls was given and has checked. -/
structure Checked (y : PaperBoundary.World) (p : Parameters) (method : String) (kind : Kind) (fields : List (String × Value))
    (found : Presented) : Prop where
  request : PaperRequests.paperRequest y.policy method p = .ok (kind, fields)
  token : validateToken p = .ok ()
  schema : PaperRequests.schema kind fields = .ok ()
  prepared : PaperBoundary.prepare y kind fields = .ok found.facts

theorem paper_checked {y : PaperBoundary.World} (h : Paper.presented y p method = .ok (some found)) :
    ∃ kind fields, Checked y p method kind fields found := by
  obtain ⟨⟨kind, fields⟩, hrequest, h⟩ := bind_ok.mp h
  obtain ⟨_, -, h⟩ := bind_ok.mp h
  obtain ⟨_, hfront, h⟩ := bind_ok.mp h
  obtain ⟨_, -, hfront⟩ := bind_ok.mp hfront
  obtain ⟨_, htoken, hschema⟩ := bind_ok.mp hfront
  by_cases hlate : y.late.isSome = true
  · rw [if_pos hlate] at h
    cases h
  rw [if_neg hlate] at h
  obtain ⟨row, -, h⟩ := bind_ok.mp h
  by_cases hrow : row.isSome = true
  · rw [if_pos hrow] at h
    cases h
  rw [if_neg hrow] at h
  obtain ⟨passed, -, h⟩ := bind_ok.mp h
  by_cases hpassed : passed.isSome = true
  · rw [if_pos hpassed] at h
    cases h
  rw [if_neg hpassed] at h
  obtain ⟨account, -, h⟩ := bind_ok.mp h
  obtain ⟨_, -, h⟩ := bind_ok.mp h
  obtain ⟨facts, hfacts, h⟩ := bind_ok.mp h
  obtain ⟨_, -, h⟩ := bind_ok.mp h
  refine ⟨kind, fields, hrequest, htoken, hschema, ?_⟩
  by_cases hkind : kind ≠ .cancel
  · rw [if_pos hkind] at h
    obtain ⟨_, -, h⟩ := bind_ok.mp h
    cases h
    exact hfacts
  · rw [if_neg hkind] at h
    cases h
    exact hfacts

theorem cancel_facts {y : PaperBoundary.World} {fields : List (String × Value)} {facts : Option OrderFacts}
    (h : PaperBoundary.prepare y .cancel fields = .ok facts) : facts = none := by
  rcases prepare_assessed h with ⟨-, hnone⟩ | ⟨hkind, -⟩
  · exact hnone
  · exact absurd rfl hkind

theorem given_op {given : Option String} {op : String} (h : given.getD "" = op) (hop : op ≠ "") : given = some op := by
  cases given with
  | none => exact absurd h.symm hop
  | some s => exact congrArg some h

theorem modify_agrees {kind : Kind} {fields : List (String × Value)}
    (hbound : boundParameters "modify_order" p = .ok q) (henv : Environment.ofText p.trdEnv = some .simulate)
    (hreview : mutationReview w "modify_order" q = .ok contract) (hchecked : Checked x.paper p "modify_order" kind fields found)
    (hunchanged : Unchanged w x) : found.facts.mapM contractView = .ok contract ↔ ¬Diverges w "modify_order" p := by
  have hrequest : PaperRequests.modifyOrder x.paper.policy p = .ok (kind, fields) := hchecked.request
  have hop := bound_modify hbound
  obtain ⟨_, -, hgiven⟩ := bind_ok.mp hrequest
  obtain ⟨hscope, hgiven⟩ := check_bind_ok.mp hgiven
  obtain ⟨-, hgiven⟩ := check_bind_ok.mp hgiven
  by_cases hcancel : p.modifyOrderOp.getD "" = "CANCEL"
  · have hname : p.modifyOrderOp.map Text.normalize = some "CANCEL" := by
      rw [given_op hcancel (by decide)]
      decide +kernel
    rw [if_pos hcancel] at hgiven
    cases hgiven
    obtain ⟨target, -, hreview⟩ := bind_ok.mp hreview
    rw [exposes, hop, hname, if_neg (by decide)] at hreview
    cases hreview
    refine iff_of_true ?_ (fun hd => absurd (hname.symm.trans hd.2.2.1) (by decide))
    rw [cancel_facts hchecked.prepared]
    rfl
  · have hname : p.modifyOrderOp.map Text.normalize = some "NORMAL" := by
      rw [given_op ((of_decide_eq_true hscope).resolve_right hcancel) (by decide)]
      decide +kernel
    rw [if_neg hcancel] at hgiven
    cases hgiven
    obtain ⟨target, hfetch, -⟩ := bind_ok.mp hreview
    rw [lift_ok_iff] at hfetch
    rw [paperModify_agrees hreview (hop.trans hname) hrequest hchecked.schema hchecked.prepared (bound_others hbound)
      hunchanged.paper hunchanged.paperTarget hfetch]
    constructor
    · rintro halike ⟨-, -, -, found, hfound, hnot⟩
      cases hfetch.symm.trans hfound
      exact hnot halike
    · intro h
      by_contra hnot
      exact h ⟨henv, rfl, hname, target, hfetch, hnot⟩

theorem paper_agrees (hbound : boundParameters method p = .ok q) (henv : Environment.ofText p.trdEnv = some .simulate)
    (hreview : reviewedContract w method q = .ok contract) (hexec : Paper.presented x.paper p method = .ok (some found))
    (hunchanged : Unchanged w x) : found.facts.mapM contractView = .ok contract ↔ ¬Diverges w method p := by
  obtain ⟨kind, fields, hchecked⟩ := paper_checked hexec
  have hothers := bound_others hbound
  have hmethod := (bound_iff.mp hbound).1.1
  have hrequest := hchecked.request
  simp only [mutations, List.mem_cons, List.not_mem_nil, or_false] at hmethod
  rcases hmethod with rfl | rfl | rfl | rfl
  · obtain ⟨c, hc, rfl⟩ := map_ok.mp hreview
    refine iff_of_true ?_ (fun hd => nomatch hd.2.1)
    exact paperPlace_agrees hc hrequest hchecked.schema hchecked.prepared hothers hunchanged.paper
  · cases (bind_ok.mp hrequest).choose_spec.2
  · exact modify_agrees hbound henv hreview hchecked hunchanged
  · rw [cancel_contract hreview]
    cases hrequest
    refine iff_of_true ?_ (fun hd => absurd hd.2.1 (by decide))
    rw [cancel_facts hchecked.prepared]
    rfl

variable {row : Prepared} {r : Reservation}

/-- What an execution hands to the controls. -/
structure Handed (x : TradeExecution.World) (method : String) (p : Parameters) (approvalId : Option RequestId)
    (env : Environment) (found : Presented) (r : Reservation) : Prop where
  environment : Environment.ofText p.trdEnv = some env
  presented : presented x method p = .ok (some found)
  contract : found.facts.mapM contractView = .ok r.contract
  account : x.controls.policy.requireApproval = true → p.accId = toString found.account
  reservation : r = ⟨method, { p with accId := toString found.account, trdEnv := env.text }, approvalId,
    x.controls.policy.requireApproval, r.contract⟩

theorem execute_handed (h : execute x method p approvalId = .ok (some r)) :
    ∃ env found, Handed x method p approvalId env found r := by
  obtain ⟨reached, hpresented, h⟩ := bind_ok.mp h
  cases reached with
  | none => cases h
  | some found =>
      obtain ⟨env, henv⟩ : ∃ env, Environment.ofText p.trdEnv = some env := by
        cases henv : Environment.ofText p.trdEnv with
        | some env => exact ⟨env, rfl⟩
        | none =>
            rw [presented, henv] at hpresented
            obtain ⟨_, -, hpresented⟩ := bind_ok.mp hpresented
            cases hpresented
      obtain ⟨contract, hcontract, h⟩ := bind_ok.mp h
      obtain ⟨checked, hcontrols, h⟩ := bind_ok.mp h
      obtain ⟨⟨active, fixed⟩, rfl, hr⟩ := Option.map_eq_some_iff.mp (Except.ok.inj h)
      rw [henv, Option.getD_some] at hcontrols
      unfold ControlContext.checkDispatchControls at hcontrols
      split at hcontrols
      · cases hcontrols
      · dsimp only at hcontrols
        split at hcontrols
        · cases hcontrols
        · split at hcontrols
          · cases hcontrols
          · next haccount =>
              split at hcontrols
              · cases hcontrols
              · cases hcontrols
                subst hr
                exact ⟨env, found, henv, hpresented, hcontract,
                  fun hrequired => not_not.mp (fun hne => haccount ⟨hrequired, hne⟩), rfl⟩

/-- An operation with valid tokens is durably identified. -/
theorem operation_token (h : validateToken p = .ok ()) : ∃ op, operation p = some op := by
  have hgiven : ∀ {field : String} {value : Option String}, validateIdentityToken field value = .ok () →
      ∃ s, value = some s ∧ s.isEmpty = false := by
    intro field value hvalid
    cases value with
    | none => cases hvalid
    | some s =>
        refine ⟨s, rfl, Bool.eq_false_iff.mpr (fun hempty => ?_)⟩
        rw [String.isEmpty_iff.mp hempty] at hvalid
        cases hvalid
  obtain ⟨_, hop, hepoch⟩ := bind_ok.mp h
  obtain ⟨op, hop, hne⟩ := hgiven hop
  obtain ⟨epoch, hepoch, hnonempty⟩ := hgiven hepoch
  refine ⟨op, ?_⟩
  rw [operation, hop, hepoch, Option.any_some, hnonempty, Option.filter_some, hne]
  rfl

/-- The request of an execution is the one that was prepared. -/
theorem handed_intent {found : Presented} (haccepted : Accepted w q row) (hbound : boundParameters row.method p = .ok row.parameters)
    (h : Handed x row.method p approvalId env found r) (hrequired : x.controls.policy.requireApproval = true) :
    canonicalIntent r.method r.parameters = .ok row.canonical := by
  rw [h.reservation, ← haccepted.canonical]
  refine (intent_bound hbound h.environment (toString found.account)).trans ?_
  obtain ⟨op, session, hsame, -⟩ := bound_ok hbound h.environment
  rw [← h.account hrequired, hsame]

theorem handed_agrees {found : Presented} (haccepted : Accepted w q row) (hbound : boundParameters row.method p = .ok row.parameters)
    (h : Handed x row.method p approvalId env found r) (hunchanged : Unchanged w x) :
    row.review.contract = r.contract ↔ ¬Diverges w row.method p := by
  have hpresented := h.presented
  rw [presented, h.environment] at hpresented
  have hview := h.contract
  cases env with
  | real =>
      refine iff_of_true ?_ (fun hd => nomatch h.environment.symm.trans hd.1)
      exact Except.ok.inj ((real_agrees hbound haccepted.contract hpresented hunchanged).symm.trans hview)
  | simulate =>
      rw [← paper_agrees hbound h.environment haccepted.contract hpresented hunchanged, hview, Except.ok.injEq]
      exact eq_comm

theorem handed_executable_iff (haccepted : Accepted w q row) (hbound : boundParameters row.method p = .ok row.parameters)
    (hminted : row.requestId ≠ "") (hunchanged : Unchanged w x) (hexec : execute x row.method p (some row.requestId) = .ok (some r)) :
    Executable row r ↔ (x.controls.policy.requireApproval = true → ¬Diverges w row.method p) := by
  obtain ⟨env, found, h⟩ := execute_handed hexec
  have hagrees := handed_agrees haccepted hbound h hunchanged
  have hid : r.approvalId = some row.requestId := by rw [h.reservation]
  have hasked : r.requireApproval = x.controls.policy.requireApproval := by rw [h.reservation]
  constructor
  · intro hexecutable hrequired hdiverges
    have hpresented := h.presented
    rw [presented, hdiverges.1] at hpresented
    obtain ⟨kind, fields, hchecked⟩ := paper_checked hpresented
    obtain ⟨op, hop⟩ := operation_token hchecked.token
    have hcanonical := handed_intent haccepted hbound h hrequired
    obtain ⟨account, haccount, -⟩ := bind_ok.mp hcanonical
    have hop' : operation r.parameters = some op := by
      rw [h.reservation]
      exact hop
    exact changed_refused hid hminted (hasked.trans hrequired) hcanonical haccount hop'
      (fun hsame => hagrees.mp hsame hdiverges) hexecutable
  · intro hholds
    refine executable_of_matches hid (fun hrequired => ?_)
    rw [hasked] at hrequired
    exact ⟨handed_intent haccepted hbound h hrequired, hagrees.mpr (hholds hrequired)⟩

variable {fault : Bool} {now : ℚ} {identifier : RequestId} {ttl : ℤ} {s : Store × Database}

theorem prepared_bound (haccepted : Accepted w p row)
    (hsame : p' = { p with accId := row.parameters.accId } ∨ p' = row.parameters) :
    boundParameters row.method p' = .ok row.parameters := by
  rcases hsame with rfl | rfl
  · exact haccepted.bound
  · exact bound_again haccepted.bound

/-- An approved request stays executable, unless it is a simulated modification whose
contract the paths read differently. -/
theorem approved_executable_iff (hminted : identifier ≠ "")
    (hprepared : prepareRequest w st db fault now identifier method p ttl = (.ok row, s))
    (hsame : p' = { p with accId := row.parameters.accId } ∨ p' = row.parameters) (hunchanged : Unchanged w x)
    (hexec : execute x method p' (some row.requestId) = .ok (some r)) :
    Executable row r ↔ (x.controls.policy.requireApproval = true → ¬Diverges w method p') := by
  obtain ⟨rfl, rfl, haccepted⟩ := prepareRequest_ok hprepared
  exact handed_executable_iff haccepted (prepared_bound haccepted hsame) hminted hunchanged hexec

/-- A simulated order for two shares, as the broker lists it with one trigger price or another. -/
def listed (auxPrice : Value) : List (String × Value) :=
  [("code", .text "US.AAPL"), ("trd_side", .text "BUY"), ("order_type", .text "NORMAL"), ("qty", .number (.finite ⟨20, -1⟩)),
    ("price", .number (.finite ⟨100, -1⟩)), ("time_in_force", .text "DAY"), ("session", .text "RTH"),
    ("order_status", .text "SUBMITTED"), ("aux_price", auxPrice)]

def paperPolicy : AccountPolicy := ⟨.simulate, [], [456]⟩

def paperAccounts : Answer (List AccountRow) := .ok [{ accId := 456, trdEnv := "SIMULATE", trdmarketAuth := ["US"] }]

def stocks : Instruments := some (fun _ => .ok [{ code := "US.AAPL", classification := some "STOCK" }])

def preparing (auxPrice : Value) : TradePreparation.World :=
  ⟨paperPolicy, none, false, true, none, some ⟨"epoch", .ok none⟩, paperAccounts, stocks, .ok (listed auxPrice),
    fun _ _ => .ok (), fun _ => .ok "\x7b\x7d"⟩

def executing (auxPrice : Value) : TradeExecution.World where
  real :=
    ⟨⟨paperPolicy, none, false, none, .ok none, none, .ok none, "epoch", .ok (), true, .ok (), paperAccounts, .ok none, .ok (), true⟩,
      false, .ok (), paperAccounts, stocks, .ok (listed auxPrice), fun _ _ => .ok (), .ok ()⟩
  paper :=
    ⟨paperPolicy, none, true, none, .ok none, .ok none, "epoch", .ok (), paperAccounts, .ok (), .ok none, .ok (), true,
      .ok (listed auxPrice), fun _ => .ok (), stocks, none, fun _ => .ok (), .ok (), .ok (), .ok (), .ok (), .ok (), .ok ()⟩
  controls := ⟨⟨true, []⟩, true⟩
  valuation := none

/-- A price of eleven for it. -/
def repriced : Parameters :=
  ⟨"SIMULATE", "456", some "op", some "epoch", some "NORMAL", none,
    [("order_id", .text "7"), ("qty", .null), ("price", .text "11"), ("adjust_limit", .number (.finite ⟨0, 0⟩))]⟩

theorem stocks_unchanged : SameAnswers stocks stocks := by
  intro find hfind find' hfind' codes facts facts' h h'
  cases Option.some.inj (hfind.symm.trans hfind')
  exact Except.ok.inj (h.symm.trans h')

theorem executing_unchanged (auxPrice : Value) : Unchanged (preparing auxPrice) (executing auxPrice) where
  valued := rfl
  real := stocks_unchanged
  paper := stocks_unchanged
  realTarget _ _ h h' := Except.ok.inj (h.symm.trans h')
  paperTarget _ _ h h' := Except.ok.inj (h.symm.trans h')

/-- The preparation and the execution of the modification both get through. -/
theorem repriced_ok (auxPrice : Value)
    (hprepared : (prepareRequest (preparing auxPrice) .opened .initial false 0 "request" "modify_order" repriced 300).1.toOption.map
      (fun row => row.parameters.accId) = some "456")
    (hexec : (execute (executing auxPrice) "modify_order" repriced (some "request")).toOption.map Option.isSome = some true) :
    ∃ row s r, prepareRequest (preparing auxPrice) .opened .initial false 0 "request" "modify_order" repriced 300 = (.ok row, s) ∧
      row.parameters.accId = "456" ∧
      execute (executing auxPrice) "modify_order" repriced (some row.requestId) = .ok (some r) := by
  rcases hx : prepareRequest (preparing auxPrice) .opened .initial false 0 "request" "modify_order" repriced 300 with ⟨x, s⟩
  rw [hx] at hprepared
  cases x with
  | error e => cases hprepared
  | ok row =>
      obtain ⟨hid, -, -⟩ := prepareRequest_ok hx
      cases hy : execute (executing auxPrice) "modify_order" repriced (some "request") with
      | error e =>
          rw [hy] at hexec
          cases hexec
      | ok handed =>
          cases handed with
          | none =>
              rw [hy] at hexec
              cases hexec
          | some r => exact ⟨row, s, r, rfl, Option.some.inj hprepared, hid ▸ hy⟩

theorem repriced_same {account : String} (h : account = "456") : repriced = { repriced with accId := account } := by
  rw [h]
  rfl

theorem modification_executable :
    ∃ row s r, prepareRequest (preparing (.text "N/A")) .opened .initial false 0 "request" "modify_order" repriced 300 = (.ok row, s) ∧
      execute (executing (.text "N/A")) "modify_order" repriced (some row.requestId) = .ok (some r) ∧ Executable row r := by
  obtain ⟨row, s, r, hprepared, haccount, hexec⟩ := repriced_ok (.text "N/A") (by decide +kernel) (by decide +kernel)
  refine ⟨row, s, r, hprepared, hexec, ?_⟩
  refine (approved_executable_iff (by decide) hprepared (.inl (repriced_same haccount)) (executing_unchanged _) hexec).mpr ?_
  rintro - ⟨-, -, -, target, hfetch, hnot⟩
  cases hfetch
  have hnone : optionalFloat (Value.get (listed (.text "N/A")) "aux_price") = .ok none := by decide +kernel
  refine hnot ⟨fun d hd => (by cases hnone.symm.trans hd), fun _ d hd => ?_⟩
  cases hd
  have hshares : PaperBoundary.shares ⟨20, -1⟩ = 2 := by decide +kernel
  rw [hshares, Decimal.value]
  norm_num

/-- With a trigger price of zero in the row of the order the approval is refused. -/
theorem triggered_modification_refused :
    ∃ row s r, prepareRequest (preparing (.number (.finite ⟨0, -1⟩))) .opened .initial false 0 "request" "modify_order" repriced 300 =
        (.ok row, s) ∧
      repriced = { repriced with accId := row.parameters.accId } ∧
      Unchanged (preparing (.number (.finite ⟨0, -1⟩))) (executing (.number (.finite ⟨0, -1⟩))) ∧
      execute (executing (.number (.finite ⟨0, -1⟩))) "modify_order" repriced (some row.requestId) = .ok (some r) ∧
      ¬Executable row r := by
  obtain ⟨row, s, r, hprepared, haccount, hexec⟩ :=
    repriced_ok (.number (.finite ⟨0, -1⟩)) (by decide +kernel) (by decide +kernel)
  have hsame := repriced_same haccount
  refine ⟨row, s, r, hprepared, hsame, executing_unchanged _, hexec, fun hexecutable => ?_⟩
  obtain ⟨hid, hmethod, haccepted⟩ := prepareRequest_ok hprepared
  have hminted : row.requestId ≠ "" := by
    rw [hid]
    decide
  have hop : repriced.modifyOrderOp.map Text.normalize = some "NORMAL" := by decide +kernel
  have hzero : optionalFloat (Value.get (listed (.number (.finite ⟨0, -1⟩))) "aux_price") = .ok (some ⟨0, -1⟩) := by
    decide +kernel
  rw [← hmethod] at hexec
  refine (handed_executable_iff haccepted (prepared_bound haccepted (.inl hsame)) hminted (executing_unchanged _) hexec).mp
    hexecutable rfl ⟨by decide +kernel, hmethod, hop, _, rfl, fun halike => ?_⟩
  exact halike.untriggered _ hzero

end MoomooMcp.ApprovedExecution
