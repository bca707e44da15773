import MoomooMcp.Checks
import MoomooMcp.Readings

namespace MoomooMcp.RealIdentity

open Intent Json Checks

abbrev Fields := List (String × Value)

/-- The text of a number, which the conversion of a long integer refuses. -/
def identityNumber : Numeral → Except Exc String
  | .nonFinite => .error (valueError "REAL request numbers must be finite")
  | .finite d =>
      if d.isInt ∧ 4300 < d.digitChars.length then
        .error (valueError "Exceeds the limit (4300 digits) for integer string conversion")
      else .ok (rendered d)

mutual

/-- Normalize numeric equivalence without accepting strings as REAL numbers. -/
def identityValue : Value → Except Exc Value
  | .number n => do return .object [("number", .text (← identityNumber n))]
  | .list vs => do return .list (← identityValues vs)
  | .object fields => do return .object (← identityFields fields)
  | v => .ok v

def identityValues : List Value → Except Exc (List Value)
  | [] => .ok []
  | v :: vs => do return (← identityValue v) :: (← identityValues vs)

def identityFields : Fields → Except Exc Fields
  | [] => .ok []
  | (k, v) :: fields => do return (k, ← identityValue v) :: (← identityFields fields)

end

def selectedSession : Value → Except Exc String
  | .text s => normalizeOrderSession s "REAL"
  | _ => .error sessionError

/-- A placement is identified by its session too, unless that is the default one,
which callers of older versions did not name. -/
def withSession (kind : String) (params : Fields) : Except Exc Fields :=
  match params.lookup "session" with
  | none => .ok params
  | some v =>
      if kind = "PLACE" then do
        let selected ← selectedSession v
        if selected = "N/A" then return params.filter (fun f => f.1 ≠ "session")
        else return params.map (fun f => (f.1, if f.1 = "session" then .text selected else f.2))
      else .ok params

def canonicalRealRequest (account : Account) (kind : String) (params : Fields) : Except Exc String := do
  let params ← withSession kind params
  let params ← identityValue (.object params)
  dumps (.object [("env", .text "REAL"), ("account", .text (toString account)), ("op_type", .text kind),
    ("params", params)])

variable {p q : Fields} {a b : Account} {kind kind' s t : String}

theorem identityNumber_ok {n : Numeral} {s : String} (h : identityNumber n = .ok s) :
    ∃ d, n = .finite d ∧ s = rendered d := by
  cases n with
  | nonFinite => cases h
  | finite d =>
      rw [identityNumber] at h
      split_ifs at h
      cases h
      exact ⟨d, rfl, rfl⟩

mutual

/-- What identifies a value has its numbers wrapped. -/
theorem identityValue_ok : ∀ {v w : Value}, identityValue v = .ok w → w = wrap v ∧ NumberFree w
  | .null, w, h | .bool _, w, h | .text _, w, h => by
      simp only [identityValue, Except.ok.injEq] at h
      subst h
      simp [wrap, NumberFree]
  | .number n, w, h => by
      rw [identityValue] at h
      obtain ⟨s, hs, h⟩ := bind_ok.mp h
      cases h
      obtain ⟨d, rfl, rfl⟩ := identityNumber_ok hs
      exact ⟨rfl, trivial, trivial⟩
  | .list vs, w, h => by
      rw [identityValue] at h
      obtain ⟨ws, hws, h⟩ := bind_ok.mp h
      cases h
      obtain ⟨rfl, hfree⟩ := identityValues_ok hws
      exact ⟨rfl, hfree⟩
  | .object fields, w, h => by
      rw [identityValue] at h
      obtain ⟨g, hg, h⟩ := bind_ok.mp h
      cases h
      obtain ⟨rfl, hfree⟩ := identityFields_ok hg
      exact ⟨rfl, hfree⟩

theorem identityValues_ok : ∀ {vs ws : List Value}, identityValues vs = .ok ws → ws = wrapAll vs ∧ NumberFreeAll ws
  | [], ws, h => by
      cases h
      exact ⟨rfl, trivial⟩
  | v :: vs, ws, h => by
      rw [identityValues] at h
      obtain ⟨w, hw, h⟩ := bind_ok.mp h
      obtain ⟨ws, hws, h⟩ := bind_ok.mp h
      cases h
      obtain ⟨rfl, hfree⟩ := identityValue_ok hw
      obtain ⟨rfl, hrest⟩ := identityValues_ok hws
      exact ⟨rfl, hfree, hrest⟩

theorem identityFields_ok : ∀ {f g : Fields}, identityFields f = .ok g → g = wrapFields f ∧ NumberFreeFields g
  | [], g, h => by
      cases h
      exact ⟨rfl, trivial⟩
  | (k, v) :: f, g, h => by
      rw [identityFields] at h
      obtain ⟨w, hw, h⟩ := bind_ok.mp h
      obtain ⟨g, hg, h⟩ := bind_ok.mp h
      cases h
      obtain ⟨rfl, hfree⟩ := identityValue_ok hw
      obtain ⟨rfl, hrest⟩ := identityFields_ok hg
      exact ⟨rfl, hfree, hrest⟩

end

theorem identityNumber_allowed {n : Numeral} (h : numberAllowed n = .ok ()) : ∃ s, identityNumber n = .ok s := by
  cases n with
  | nonFinite => cases h
  | finite d =>
      rw [numberAllowed] at h
      rw [identityNumber]
      split_ifs at h ⊢
      exact ⟨_, rfl⟩

mutual

/-- Finite numbers, and integers that can be written out, are all that is asked of a value. -/
theorem identityValue_allowed : ∀ {v : Value}, allowed v = .ok () → ∃ w, identityValue v = .ok w
  | .null, _ | .bool _, _ | .text _, _ => by simp [identityValue]
  | .number n, h => by
      rw [allowed] at h
      obtain ⟨s, hs⟩ := identityNumber_allowed h
      rw [identityValue, hs]
      exact ⟨_, rfl⟩
  | .list vs, h => by
      rw [allowed] at h
      obtain ⟨ws, hws⟩ := identityValues_allowed h
      rw [identityValue, hws]
      exact ⟨_, rfl⟩
  | .object fields, h => by
      rw [allowed] at h
      obtain ⟨g, hg⟩ := identityFields_allowed h
      rw [identityValue, hg]
      exact ⟨_, rfl⟩

theorem identityValues_allowed : ∀ {vs : List Value}, allowedAll vs = .ok () → ∃ ws, identityValues vs = .ok ws
  | [], _ => ⟨_, rfl⟩
  | v :: vs, h => by
      rw [allowedAll] at h
      obtain ⟨_, hv, hvs⟩ := bind_ok.mp h
      obtain ⟨w, hw⟩ := identityValue_allowed hv
      obtain ⟨ws, hws⟩ := identityValues_allowed hvs
      rw [identityValues, hw, hws]
      exact ⟨_, rfl⟩

theorem identityFields_allowed : ∀ {f : Fields}, allowedFields f = .ok () → ∃ g, identityFields f = .ok g
  | [], _ => ⟨_, rfl⟩
  | (k, v) :: f, h => by
      rw [allowedFields] at h
      obtain ⟨_, hv, hf⟩ := bind_ok.mp h
      obtain ⟨w, hw⟩ := identityValue_allowed hv
      obtain ⟨g, hg⟩ := identityFields_allowed hf
      rw [identityFields, hw, hg]
      exact ⟨_, rfl⟩

end

/-- The text of a request is that of its sorted record. -/
theorem canonicalRealRequest_ok (h : canonicalRealRequest a kind p = .ok s) :
    ∃ p', withSession kind p = .ok p' ∧ loads s = .ok (sortKeys (request "REAL" a kind (wrap (.object p')))) ∧
      dumps (request "REAL" a kind (wrap (.object p'))) = .ok s := by
  obtain ⟨p', hp', h⟩ := bind_ok.mp h
  obtain ⟨w, hw, h⟩ := bind_ok.mp h
  obtain ⟨rfl, hfree⟩ := identityValue_ok hw
  have hbody : NumberFree (request "REAL" a kind (wrap (.object p'))) := ⟨trivial, trivial, trivial, hfree, trivial⟩
  obtain ⟨t, ht, hl⟩ := dumps_numberFree hbody
  have hst : t = s := Except.ok.inj (ht.symm.trans h)
  exact ⟨p', hp', hst ▸ hl, h⟩

/-- Whether a request has a text does not depend on its account. -/
theorem canonicalRealRequest_account (h : canonicalRealRequest a kind p = .ok s) :
    ∃ t, canonicalRealRequest b kind p = .ok t := by
  obtain ⟨p', hp', h⟩ := bind_ok.mp h
  obtain ⟨w, hw, -⟩ := bind_ok.mp h
  have hbody : NumberFree (request "REAL" b kind w) := ⟨trivial, trivial, trivial, (identityValue_ok hw).2, trivial⟩
  obtain ⟨t, ht, -⟩ := dumps_numberFree hbody
  exact ⟨t, bind_ok.mpr ⟨p', hp', bind_ok.mpr ⟨w, hw, ht⟩⟩⟩

/-- The text determines the account, the kind and the identity of the parameters, and is determined by them. -/
theorem canonical_eq_iff {p' q' : Fields} (hp : withSession kind p = .ok p') (hq : withSession kind' q = .ok q')
    (hs : canonicalRealRequest a kind p = .ok s) (ht : canonicalRealRequest b kind' q = .ok t) :
    s = t ↔ a = b ∧ kind = kind' ∧ identity (.object p') = identity (.object q') := by
  obtain ⟨_, hp', hls, hds⟩ := canonicalRealRequest_ok hs
  obtain ⟨_, hq', hlt, hdt⟩ := canonicalRealRequest_ok ht
  cases Except.ok.inj (hp.symm.trans hp')
  cases Except.ok.inj (hq.symm.trans hq')
  have hrecords : s = t ↔ sortKeys (request "REAL" a kind (wrap (.object p'))) = sortKeys (request "REAL" b kind' (wrap (.object q'))) := by
    constructor
    · rintro rfl
      exact Except.ok.inj (hls.symm.trans hlt)
    · intro he
      unfold dumps at hds hdt
      obtain ⟨_, _, hds⟩ := bind_ok.mp hds
      obtain ⟨_, _, hdt⟩ := bind_ok.mp hdt
      rw [he] at hds
      exact Except.ok.inj (hds.symm.trans hdt)
  rw [hrecords, sortKeys_request, sortKeys_request]
  simp [repr_eq_iff, identity]

/-- The parameters of a request: a dictionary, no part of which looks like a wrapped number. -/
structure Params (p : Fields) : Prop where
  unique : (keys p).Nodup
  plain : PlainFields p

theorem withSession_params (hp : Params p) {p' : Fields} (h : withSession kind p = .ok p') : Params p' := by
  unfold withSession at h
  split at h
  · cases h
    exact hp
  · split_ifs at h
    · obtain ⟨selected, -, h⟩ := bind_ok.mp h
      split_ifs at h
      · cases h
        refine ⟨hp.unique.sublist (List.Sublist.map _ List.filter_sublist), plainFields_iff.mpr (fun f hf => ?_)⟩
        exact plainFields_iff.mp hp.plain f (List.mem_of_mem_filter hf)
      · cases h
        refine ⟨?_, plainFields_iff.mpr (fun f hf => ?_)⟩
        · have hkeys : keys (p.map (fun f => (f.1, if f.1 = "session" then Value.text selected else f.2))) = keys p := by
            simp [keys, Function.comp_def]
          rw [hkeys]
          exact hp.unique
        · obtain ⟨g, hg, rfl⟩ := List.mem_map.mp hf
          dsimp only
          split_ifs
          · trivial
          · exact plainFields_iff.mp hp.plain g hg
    · cases h
      exact hp

theorem withSession_allowed {p' : Fields} (h : withSession kind p = .ok p') (ha : allowed (.object p) = .ok ()) :
    allowed (.object p') = .ok () := by
  rw [allowed, allowedFields_iff] at ha ⊢
  unfold withSession at h
  split at h
  · cases h
    exact ha
  · split_ifs at h
    · obtain ⟨selected, -, h⟩ := bind_ok.mp h
      split_ifs at h
      · cases h
        exact fun f hf => ha f (List.mem_of_mem_filter hf)
      · cases h
        intro f hf
        obtain ⟨g, hg, rfl⟩ := List.mem_map.mp hf
        dsimp only
        split_ifs
        · rfl
        · exact ha g hg
    · cases h
      exact ha

/-- What a request asks for, where its session is one: its terms without their spelling. -/
def meaning (kind : String) (p : Fields) : Option Reading :=
  (withSession kind p).toOption.map (fun p => reading (.object p))

end MoomooMcp.RealIdentity
