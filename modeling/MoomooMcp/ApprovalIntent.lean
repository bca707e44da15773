import MoomooMcp.OrderRules
import MoomooMcp.RealIdentity

namespace MoomooMcp.ApprovalIntent

open Intent Json Checks RealIdentity

/-- `params.pop(key, None)`. -/
def without (key : String) (params : Fields) : Fields := params.filter (fun f => f.1 ≠ key)

/-- `params[key] = text`, of a key that is there. -/
def replace (key text : String) (params : Fields) : Fields :=
  params.map (fun f => (f.1, if f.1 = key then .text text else f.2))

/-- A parameter that is given is replaced by the text it is bound to. -/
def bindField (key : String) (f : Value → Except Exc String) (params : Fields) : Except Exc Fields :=
  match params.lookup key with
  | none => .ok params
  | some v => do return replace key (← f v) params

section Python

-- `str`, of the values that are not texts already.
variable (str : Value → Except Exc String)

def textOf : Value → Except Exc String
  | .text s => .ok s
  | v => str v

def boundOp (v : Value) : Except Exc String := do return Text.normalize (← textOf str v)

def boundAccount (v : Value) : Except Exc String := do return toString (← canonicalAccount (← textOf str v))

def simulated (params : Fields) : Bool :=
  match params.lookup "trd_env" with
  | some (.text s) => s = "SIMULATE"
  | _ => false

/-- Whether the session is the default one, or the only one of the simulated environment. -/
def defaultSession (params : Fields) : Bool :=
  match params.lookup "session" with
  | none | some .null => true
  | some (.text s) =>
      s = "N/A" || s = "NONE" || (simulated params && s = "RTH")
  | _ => false

/-- The parameters that an approval binds, with one spelling of those that route the request. -/
def bound (params : Fields) : Except Exc Fields := do
  let params ← bindField "modify_order_op" (boundOp str) (without "approval_id" params)
  let params ← bindField "acc_id" (boundAccount str) params
  let params ← bindField "session" selectedSession params
  return if defaultSession params then without "session" params else params

/-- Bind defaults, routing and caller identity, excluding approval transport. -/
def canonicalIntent (method : String) (params : Fields) : Except Exc String := do
  let fields ← number (.object (← bound str params))
  let encoded ← dumps (.object [("method", .text method), ("parameters", fields)])
  if 65536 < encoded.length then .error (valueError "Prepared request exceeds 64 KiB")
  else return encoded

/-- The session that a request asks for: none where it is the default one. -/
def askedSession (params : Fields) : Option String :=
  match params.lookup "session" with
  | some (.text s) =>
      let selected := Text.normalize s
      if selected = "NONE" ∨ selected = "N/A" then none
      else if selected = "RTH" ∧ simulated params then none
      else some selected
  | _ => none

def askedOp (v : Value) : Option String := (textOf str v).toOption.map Text.normalize

def askedAccount (v : Value) : Option Account := (textOf str v).toOption.bind (fun s => (canonicalAccount s).toOption)

/-- Two requests ask for the same: beyond the spelling of operation, account and
session no parameter differs. -/
structure Agree (p q : Fields) : Prop where
  others : ∀ k ∉ ["approval_id", "modify_order_op", "acc_id", "session"], (p.lookup k).map reading = (q.lookup k).map reading
  op : (p.lookup "modify_order_op").map (askedOp str) = (q.lookup "modify_order_op").map (askedOp str)
  account : (p.lookup "acc_id").map (askedAccount str) = (q.lookup "acc_id").map (askedAccount str)
  session : askedSession p = askedSession q

end Python

variable {str : Value → Except Exc String} {p p' q q' : Fields} {key k : String} {f : Value → Except Exc String}

theorem lookup_without : (without key p).lookup k = if k = key then none else p.lookup k := by
  induction p with
  | nil => simp [without]
  | cons e p ih =>
      obtain ⟨k', v⟩ := e
      rw [without] at ih ⊢
      by_cases hk' : k' = key
      · rw [List.filter_cons_of_neg (by simpa using hk'), ih]
        by_cases hk : k = key
        · rw [if_pos hk, if_pos hk]
        · have hne : (k == k') = false := by
            rw [hk']
            simpa using hk
          rw [if_neg hk, if_neg hk, List.lookup_cons, hne]
      · rw [List.filter_cons_of_pos (by simpa using hk'), List.lookup_cons, List.lookup_cons, ih]
        by_cases hk : k = k'
        · subst hk
          simp [hk']
        · have hne : (k == k') = false := by simpa using hk
          rw [hne]

theorem lookup_replace {text : String} :
    (replace key text p).lookup k = if k = key then (p.lookup k).map (fun _ => .text text) else p.lookup k := by
  induction p with
  | nil => simp [replace]
  | cons e p ih =>
      obtain ⟨k', v⟩ := e
      rw [replace] at ih ⊢
      rw [List.map_cons, List.lookup_cons, List.lookup_cons, ih]
      by_cases hk : k = k'
      · subst hk
        simp only [beq_self_eq_true, Option.map_some]
        split_ifs <;> rfl
      · have hne : (k == k') = false := by simpa using hk
        rw [hne]

theorem reading_text_iff {v : Value} {t : String} : reading v = .text t ↔ v = .text t := by
  cases v with
  | number n => cases n <;> simp [reading]
  | null | bool _ | text _ | list _ | object _ => simp [reading]

theorem simulated_iff : simulated p = true ↔ p.lookup "trd_env" = some (.text "SIMULATE") := by
  unfold simulated
  split
  · next s hs => simp [hs]
  · next hs => exact iff_of_false (fun h => nomatch h) (fun h => hs _ h)

theorem params_without (hp : RealIdentity.Params p) : RealIdentity.Params (without key p) := by
  refine ⟨hp.unique.sublist (List.Sublist.map _ List.filter_sublist), plainFields_iff.mpr (fun e he => ?_)⟩
  exact plainFields_iff.mp hp.plain e (List.mem_of_mem_filter he)

theorem params_replace {text : String} (hp : RealIdentity.Params p) : RealIdentity.Params (replace key text p) := by
  constructor
  · have hkeys : keys (replace key text p) = keys p := by simp [keys, replace, Function.comp_def]
    rw [hkeys]
    exact hp.unique
  · refine plainFields_iff.mpr (fun e he => ?_)
    obtain ⟨g, hg, rfl⟩ := List.mem_map.mp he
    dsimp only
    split_ifs
    · trivial
    · exact plainFields_iff.mp hp.plain g hg

theorem bindField_ok (h : bindField key f p = .ok p') :
    (∀ k, p'.lookup k = if k = key then (p.lookup key).map (fun v => .text ((f v).toOption.getD "")) else p.lookup k) ∧
      (∀ v, p.lookup key = some v → ∃ s, f v = .ok s) ∧ (RealIdentity.Params p → RealIdentity.Params p') := by
  unfold bindField at h
  cases hv : p.lookup key with
  | none =>
      rw [hv] at h
      cases h
      refine ⟨fun k => ?_, fun v hv' => (nomatch hv'), id⟩
      by_cases hk : k = key
      · rw [if_pos hk, hk, hv]
        rfl
      · rw [if_neg hk]
  | some v =>
      rw [hv] at h
      obtain ⟨s, hs, h⟩ := bind_ok.mp h
      cases h
      refine ⟨fun k => ?_, fun v' hv' => ?_, fun hp => params_replace hp⟩
      · rw [lookup_replace]
        by_cases hk : k = key
        · rw [if_pos hk, if_pos hk, hk, hv, Option.map_some, Option.map_some, hs]
          rfl
        · rw [if_neg hk, if_neg hk]
      · cases hv'
        exact ⟨s, hs⟩

/-- What the bound parameters hold. -/
structure Bound (str : Value → Except Exc String) (p p' : Fields) : Prop where
  others : ∀ k ∉ ["approval_id", "modify_order_op", "acc_id", "session"], p'.lookup k = p.lookup k
  approval : p'.lookup "approval_id" = none
  op : ∃ op : Value → String, (∀ v, p.lookup "modify_order_op" = some v → boundOp str v = .ok (op v)) ∧
    p'.lookup "modify_order_op" = (p.lookup "modify_order_op").map (fun v => .text (op v))
  account : ∃ account : Value → String, (∀ v, p.lookup "acc_id" = some v → boundAccount str v = .ok (account v)) ∧
    p'.lookup "acc_id" = (p.lookup "acc_id").map (fun v => .text (account v))
  session : p'.lookup "session" = (askedSession p).map .text

theorem selected_ok {v : Value} {selected : String} (h : selectedSession v = .ok selected) :
    ∃ s, v = .text s ∧ selected = if Text.normalize s = "NONE" then "N/A" else Text.normalize s := by
  cases v with
  | text s =>
      refine ⟨s, rfl, ?_⟩
      rw [selectedSession, normalizeOrderSession] at h
      have hreal : Text.normalize "REAL" ≠ "SIMULATE" := by decide
      by_cases hnone : Text.normalize s = "NONE"
      · rw [if_pos hnone] at h ⊢
        split_ifs at h
        cases h
        rfl
      · rw [if_neg hnone] at h ⊢
        split_ifs at h
        cases h
        rfl
  | null | bool _ | number _ | list _ | object _ => cases h

/-- The session as it is bound, before the default one is left out. -/
theorem askedSession_eq {s : String} (h : p.lookup "session" = some (.text s)) {selected : String}
    (hs : selected = if Text.normalize s = "NONE" then "N/A" else Text.normalize s) :
    askedSession p = if selected = "N/A" ∨ (simulated p = true ∧ selected = "RTH") then none else some selected := by
  unfold askedSession
  rw [h]
  dsimp only
  by_cases hnone : Text.normalize s = "NONE"
  · rw [if_pos hnone] at hs
    rw [if_pos (.inl hnone), if_pos (.inl hs)]
  · rw [if_neg hnone] at hs
    rw [← hs] at hnone ⊢
    by_cases hdefault : selected = "N/A"
    · rw [if_pos (.inr hdefault), if_pos (.inl hdefault)]
    · have hnot : ¬(selected = "NONE" ∨ selected = "N/A") := fun h => h.elim hnone hdefault
      rw [if_neg hnot]
      by_cases hrth : selected = "RTH" ∧ simulated p = true
      · rw [if_pos hrth, if_pos (.inr ⟨hrth.2, hrth.1⟩)]
      · rw [if_neg hrth, if_neg]
        rintro (h | ⟨h, h'⟩)
        · exact hdefault h
        · exact hrth ⟨h', h⟩

theorem dropped_session {p₃ : Fields} (hsession : p₃.lookup "session" =
      (p.lookup "session").map (fun v => .text ((selectedSession v).toOption.getD "")))
    (hselected : ∀ v, p.lookup "session" = some v → ∃ s, selectedSession v = .ok s)
    (henv : p₃.lookup "trd_env" = p.lookup "trd_env") :
    (if defaultSession p₃ then without "session" p₃ else p₃).lookup "session" = (askedSession p).map .text := by
  have hsimulated : simulated p₃ = simulated p := by
    unfold simulated
    rw [henv]
  cases hv : p.lookup "session" with
  | none =>
      have hdefault : defaultSession p₃ = true := by
        unfold defaultSession
        rw [hsession, hv]
        rfl
      have hasked : askedSession p = none := by
        unfold askedSession
        rw [hv]
      rw [if_pos hdefault, lookup_without, if_pos rfl, hasked]
      rfl
  | some v =>
      obtain ⟨selected, hselect⟩ := hselected v hv
      obtain ⟨s, rfl, hs⟩ := selected_ok hselect
      have hnone : selected ≠ "NONE" := by
        rw [hs]
        split_ifs with h
        · decide
        · exact h
      have hp₃ : p₃.lookup "session" = some (.text selected) := by
        rw [hsession, hv, Option.map_some, hselect]
        rfl
      have hdefault : defaultSession p₃ = true ↔ selected = "N/A" ∨ (simulated p = true ∧ selected = "RTH") := by
        unfold defaultSession
        rw [hp₃, hsimulated]
        simp [hnone]
      rw [askedSession_eq hv hs]
      by_cases hd : defaultSession p₃ = true
      · rw [if_pos hd, if_pos (hdefault.mp hd), lookup_without, if_pos rfl]
        rfl
      · rw [if_neg hd, if_neg (fun h => hd (hdefault.mpr h)), hp₃]
        rfl

theorem bound_ok (h : bound str p = .ok p') : Bound str p p' ∧ (RealIdentity.Params p → RealIdentity.Params p') := by
  obtain ⟨p₁, h₁, h⟩ := bind_ok.mp h
  obtain ⟨p₂, h₂, h⟩ := bind_ok.mp h
  obtain ⟨p₃, h₃, h⟩ := bind_ok.mp h
  obtain ⟨hl₁, ho₁, hp₁⟩ := bindField_ok h₁
  obtain ⟨hl₂, ho₂, hp₂⟩ := bindField_ok h₂
  obtain ⟨hl₃, ho₃, hp₃⟩ := bindField_ok h₃
  have hsteps : ∀ k, k ≠ "modify_order_op" → k ≠ "acc_id" → k ≠ "session" → k ≠ "approval_id" → p₃.lookup k = p.lookup k := by
    intro k hop haccount hsession happroval
    rw [hl₃, if_neg hsession, hl₂, if_neg haccount, hl₁, if_neg hop, lookup_without, if_neg happroval]
  have hp₂session : p₂.lookup "session" = p.lookup "session" := by
    rw [hl₂, if_neg (by decide), hl₁, if_neg (by decide), lookup_without, if_neg (by decide)]
  have hp₁account : p₁.lookup "acc_id" = p.lookup "acc_id" := by
    rw [hl₁, if_neg (by decide), lookup_without, if_neg (by decide)]
  have hop : (without "approval_id" p).lookup "modify_order_op" = p.lookup "modify_order_op" := by
    rw [lookup_without, if_neg (by decide)]
  have hlast : ∀ k, k ≠ "session" → p'.lookup k = p₃.lookup k := by
    intro k hk
    cases h
    split_ifs
    · rw [lookup_without, if_neg hk]
    · rfl
  have hsession : p'.lookup "session" = (askedSession p).map .text := by
    cases h
    refine dropped_session ?_ (fun v hv => ho₃ v (hp₂session.trans hv)) (hsteps _ (by decide) (by decide) (by decide) (by decide))
    rw [hl₃, if_pos rfl, hp₂session]
  refine ⟨⟨?_, ?_, ?_, ?_, hsession⟩, ?_⟩
  · intro k hk
    simp only [List.mem_cons, List.not_mem_nil, or_false, not_or] at hk
    obtain ⟨happroval, hop, haccount, hsession⟩ := hk
    rw [hlast k hsession, hsteps k hop haccount hsession happroval]
  · rw [hlast _ (by decide), hl₃, if_neg (by decide), hl₂, if_neg (by decide), hl₁, if_neg (by decide), lookup_without,
      if_pos rfl]
  · refine ⟨fun v => (boundOp str v).toOption.getD "", fun v hv => ?_, ?_⟩
    · obtain ⟨op, hv'⟩ := ho₁ v (hop.trans hv)
      dsimp only
      rw [hv']
      rfl
    · rw [hlast _ (by decide), hl₃, if_neg (by decide), hl₂, if_neg (by decide), hl₁, if_pos rfl, hop]
  · refine ⟨fun v => (boundAccount str v).toOption.getD "", fun v hv => ?_, ?_⟩
    · obtain ⟨account, hv'⟩ := ho₂ v (hp₁account.trans hv)
      dsimp only
      rw [hv']
      rfl
    · rw [hlast _ (by decide), hl₃, if_neg (by decide), hl₂, if_pos rfl, hp₁account]
  · intro hp
    have hparams := hp₃ (hp₂ (hp₁ (params_without hp)))
    cases h
    split_ifs
    · exact params_without hparams
    · exact hparams

/-- Texts that are bound to a parameter agree as what the parameter asks for does. -/
theorem map_text_iff {β : Type} {φ ψ : Value → String} {asked : Value → Option β} {x y : Option Value}
    (h : ∀ v ∈ x, ∀ w ∈ y, φ v = ψ w ↔ asked v = asked w) :
    (x.map (fun v => Value.text (φ v))).map reading = (y.map (fun v => Value.text (ψ v))).map reading ↔
      x.map asked = y.map asked := by
  cases x with
  | none => cases y <;> simp
  | some v =>
      cases y with
      | none => simp
      | some w => simpa [reading] using h v rfl w rfl

theorem boundOp_ok {v : Value} {s : String} (h : boundOp str v = .ok s) : askedOp str v = some s := by
  obtain ⟨t, ht, h⟩ := bind_ok.mp h
  cases h
  rw [askedOp, ht]
  rfl

theorem boundAccount_ok {v : Value} {s : String} (h : boundAccount str v = .ok s) :
    ∃ account : Account, askedAccount str v = some account ∧ s = toString account := by
  obtain ⟨t, ht, h⟩ := bind_ok.mp h
  obtain ⟨account, haccount, h⟩ := bind_ok.mp h
  cases h
  refine ⟨account, ?_, rfl⟩
  rw [askedAccount, ht]
  change (canonicalAccount t).toOption = _
  rw [haccount]
  rfl

/-- What is bound says the same exactly if the same is asked for. -/
theorem reading_bound_iff (hp : Bound str p p') (hq : Bound str q q') :
    reading (.object p') = reading (.object q') ↔ Agree str p q := by
  obtain ⟨op, hop, hpop⟩ := hp.op
  obtain ⟨op', hop', hqop⟩ := hq.op
  obtain ⟨account, haccount, hpaccount⟩ := hp.account
  obtain ⟨account', haccount', hqaccount⟩ := hq.account
  have hopiff : (p'.lookup "modify_order_op").map reading = (q'.lookup "modify_order_op").map reading ↔
      (p.lookup "modify_order_op").map (askedOp str) = (q.lookup "modify_order_op").map (askedOp str) := by
    rw [hpop, hqop]
    refine map_text_iff (fun v hv w hw => ?_)
    rw [boundOp_ok (hop v hv), boundOp_ok (hop' w hw), Option.some.injEq]
  have haccountiff : (p'.lookup "acc_id").map reading = (q'.lookup "acc_id").map reading ↔
      (p.lookup "acc_id").map (askedAccount str) = (q.lookup "acc_id").map (askedAccount str) := by
    rw [hpaccount, hqaccount]
    refine map_text_iff (fun v hv w hw => ?_)
    obtain ⟨a, ha, htext⟩ := boundAccount_ok (haccount v hv)
    obtain ⟨b, hb, htext'⟩ := boundAccount_ok (haccount' w hw)
    rw [ha, hb, htext, htext', Option.some.injEq]
    exact repr_eq_iff
  have hsessioniff : (p'.lookup "session").map reading = (q'.lookup "session").map reading ↔
      askedSession p = askedSession q := by
    rw [hp.session, hq.session]
    cases askedSession p <;> cases askedSession q <;> simp [reading]
  rw [reading_object_iff]
  constructor
  · intro h
    refine ⟨fun k hk => ?_, hopiff.mp (h _), haccountiff.mp (h _), hsessioniff.mp (h _)⟩
    rw [← hp.others k hk, ← hq.others k hk]
    exact h k
  · intro h k
    by_cases hk : k ∈ ["approval_id", "modify_order_op", "acc_id", "session"]
    · simp only [List.mem_cons, List.not_mem_nil, or_false] at hk
      rcases hk with rfl | rfl | rfl | rfl
      · rw [hp.approval, hq.approval]
      · exact hopiff.mpr h.op
      · exact haccountiff.mpr h.account
      · exact hsessioniff.mpr h.session
    · rw [hp.others k hk, hq.others k hk]
      exact h.others k hk


mutual

/-- Numbers are wrapped as in the requests that are sent. -/
theorem number_ok : ∀ {v w : Value}, number v = .ok w → identityValue v = .ok w
  | .null, w, h | .bool _, w, h | .text _, w, h => by
      rw [number] at h
      · rw [identityValue]
        · exact h
        all_goals nofun
      all_goals nofun
  | .number .nonFinite, w, h => by
      rw [number] at h
      cases h
  | .number (.finite d), w, h => by
      rw [number] at h
      split_ifs at h with hlong
      rw [identityValue, identityNumber, if_neg]
      · exact h
      · simpa [Decimal.isInt, Decimal.digitChars] using hlong
  | .list vs, w, h => by
      rw [number] at h
      obtain ⟨ws, hws, h⟩ := bind_ok.mp h
      rw [identityValue, numbers_ok hws]
      exact h
  | .object fields, w, h => by
      rw [number] at h
      obtain ⟨g, hg, h⟩ := bind_ok.mp h
      rw [identityValue, numberFields_ok hg]
      exact h

theorem numbers_ok : ∀ {vs ws : List Value}, numbers vs = .ok ws → identityValues vs = .ok ws
  | [], ws, h => h
  | v :: vs, ws, h => by
      rw [numbers] at h
      obtain ⟨w, hw, h⟩ := bind_ok.mp h
      obtain ⟨ws', hws, h⟩ := bind_ok.mp h
      rw [identityValues, number_ok hw, numbers_ok hws]
      exact h

theorem numberFields_ok : ∀ {f g : Fields}, numberFields f = .ok g → identityFields f = .ok g
  | [], g, h => h
  | (k, v) :: f, g, h => by
      rw [numberFields] at h
      obtain ⟨w, hw, h⟩ := bind_ok.mp h
      obtain ⟨g', hg, h⟩ := bind_ok.mp h
      rw [identityFields, number_ok hw, numberFields_ok hg]
      exact h

end

/-- The record that is written for an approval. -/
def record (method : String) (params : Value) : Value := .object [("method", .text method), ("parameters", params)]

theorem sortKeys_record (method : String) (params : Value) :
    sortKeys (record method params) = .object [("method", .text method), ("parameters", sortKeys params)] := by
  have hle : "method" ≤ "parameters" := by decide
  simp [record, sortKeys, sortKeysFields, hle]

theorem canonicalIntent_ok {m s : String} (h : canonicalIntent str m p = .ok s) :
    ∃ p', bound str p = .ok p' ∧ loads s = .ok (sortKeys (record m (wrap (.object p')))) ∧
      dumps (record m (wrap (.object p'))) = .ok s := by
  obtain ⟨p', hp', h⟩ := bind_ok.mp h
  obtain ⟨w, hw, h⟩ := bind_ok.mp h
  obtain ⟨t, ht, hsize⟩ := bind_ok.mp h
  obtain ⟨rfl, hfree⟩ := identityValue_ok (number_ok hw)
  have hbody : NumberFree (record m (wrap (.object p'))) := ⟨trivial, hfree, trivial⟩
  obtain ⟨t', ht', hl⟩ := dumps_numberFree hbody
  have hts : t = s := by
    split_ifs at hsize
    cases hsize
    rfl
  subst hts
  have htt : t' = t := Except.ok.inj (ht'.symm.trans ht)
  exact ⟨p', hp', htt ▸ hl, ht⟩

/-- Two requests have one canonical intent exactly if they are of one method and
ask for the same. -/
theorem canonicalIntent_eq_iff (str : Value → Except Exc String) {m n s t : String} (hp : RealIdentity.Params p)
    (hq : RealIdentity.Params q) (hs : canonicalIntent str m p = .ok s) (ht : canonicalIntent str n q = .ok t) :
    s = t ↔ m = n ∧ Agree str p q := by
  obtain ⟨p', hp', hls, hds⟩ := canonicalIntent_ok hs
  obtain ⟨q', hq', hlt, hdt⟩ := canonicalIntent_ok ht
  have hrecords : s = t ↔ sortKeys (record m (wrap (.object p'))) = sortKeys (record n (wrap (.object q'))) := by
    constructor
    · rintro rfl
      exact Except.ok.inj (hls.symm.trans hlt)
    · intro he
      unfold dumps at hds hdt
      obtain ⟨_, _, hds⟩ := bind_ok.mp hds
      obtain ⟨_, _, hdt⟩ := bind_ok.mp hdt
      rw [he] at hds
      exact Except.ok.inj (hds.symm.trans hdt)
  obtain ⟨hbp, hpp⟩ := bound_ok hp'
  obtain ⟨hbq, hqq⟩ := bound_ok hq'
  rw [hrecords, sortKeys_record, sortKeys_record, ← reading_bound_iff hbp hbq,
    ← parameters_iff (hpp hp).unique (hqq hq).unique (hpp hp).plain (hqq hq).plain]
  simp [identity]

/-- The approval of a cancellation is that of its account, however it is written, and of no other operation. -/
theorem approved_cancellation : ∃ s t,
    canonicalIntent (fun v => .ok v.str) "cancel_order"
      [("acc_id", .text "007"), ("operation_id", .text "A"), ("approval_id", .text "x")] = .ok s ∧
    canonicalIntent (fun v => .ok v.str) "cancel_order"
      [("operation_id", .text "A"), ("acc_id", .number (.finite ⟨7, 0⟩))] = .ok s ∧
    canonicalIntent (fun v => .ok v.str) "cancel_order"
      [("operation_id", .text "B"), ("acc_id", .text "7")] = .ok t ∧ s ≠ t := by
  have hok : ∀ p : Fields, (canonicalIntent (fun v => .ok v.str) "cancel_order" p).toOption.isSome = true →
      ∃ s, canonicalIntent (fun v => .ok v.str) "cancel_order" p = .ok s := by
    intro p h
    cases hs : canonicalIntent (fun v => .ok v.str) "cancel_order" p with
    | error e =>
        rw [hs] at h
        cases h
    | ok s => exact ⟨s, rfl⟩
  obtain ⟨s, hs⟩ := hok [("acc_id", .text "007"), ("operation_id", .text "A"), ("approval_id", .text "x")] (by decide +kernel)
  obtain ⟨r, hr⟩ := hok [("operation_id", .text "A"), ("acc_id", .number (.finite ⟨7, 0⟩))] (by decide +kernel)
  obtain ⟨t, ht⟩ := hok [("operation_id", .text "B"), ("acc_id", .text "7")] (by decide +kernel)
  have hp : RealIdentity.Params [("acc_id", .text "007"), ("operation_id", .text "A"), ("approval_id", .text "x")] :=
    ⟨by decide, trivial, trivial, trivial, trivial⟩
  have hq : RealIdentity.Params [("operation_id", .text "A"), ("acc_id", .number (.finite ⟨7, 0⟩))] :=
    ⟨by decide, trivial, trivial, trivial⟩
  have hother : RealIdentity.Params [("operation_id", .text "B"), ("acc_id", .text "7")] :=
    ⟨by decide, trivial, trivial, trivial⟩
  have hsame : s = r := by
    refine (canonicalIntent_eq_iff _ hp hq hs hr).mpr ⟨rfl, fun k hk => ?_, rfl, by decide +kernel, rfl⟩
    simp only [List.mem_cons, List.not_mem_nil, or_false, not_or] at hk
    have hne : ∀ c : String, k ≠ c → (k == c) = false := fun c h => by simpa using h
    simp [List.lookup_cons, hne _ hk.1, hne _ hk.2.2.1]
  have hdifferent : s ≠ t := by
    intro he
    have hothers := ((canonicalIntent_eq_iff _ hp hother hs ht).mp he).2.others "operation_id" (by decide)
    have htexts : Reading.text "A" = Reading.text "B" := Option.some.inj hothers
    rw [Reading.text.injEq] at htexts
    exact absurd htexts (by decide)
  exact ⟨s, t, hs, hsame ▸ hr, ht, hdifferent⟩

end MoomooMcp.ApprovalIntent
