import MoomooMcp.Checks
import MoomooMcp.PaperRequests
import MoomooMcp.ValueEquality

namespace MoomooMcp.PaperIdentity

open Intent Json Checks OrderRules

mutual

/-- The value with every price, at any depth, in its canonical spelling. -/
def canonical (key : String) (v : Value) : Except Exc Value :=
  if key = "price" then do return .text (rendered (← decimalPrice v))
  else
    match v with
    | .list vs => do return .list (← canonicalItems vs)
    | .object fields => do return .object (← canonicalFields fields)
    | v => .ok v

def canonicalItems : List Value → Except Exc (List Value)
  | [] => .ok []
  | v :: vs => do return (← canonical "" v) :: (← canonicalItems vs)

def canonicalFields : Fields → Except Exc Fields
  | [] => .ok []
  | (k, v) :: fields => do return (k, ← canonical k v) :: (← canonicalFields fields)

end

def canonicalizeRequest (env : String) (account : Account) (opType : String) (params : Fields) : Except Exc String := do
  let params ← canonical "" (.object params)
  dumps (.object [("env", .text env), ("account", .text (toString account)), ("op_type", .text opType),
    ("params", params)])

def members : Value → Except Exc Fields
  | .object fields => .ok fields
  | _ => .error ⟨.other, "a request must be an object", false⟩

/-- The keys of both objects, each once and in order. -/
def allKeys (left right : Fields) : List String := (keys left ++ keys right).dedup.insertionSort (· ≤ ·)

def differs : Option Value → Option Value → Bool
  | some v, some w => !same v w
  | none, none => false
  | _, _ => true

def unequal (left right : Fields) (key : String) : Except Exc (List String) := do
  return if same (← Value.item left key) (← Value.item right key) then [] else [key]

def differingFields (stored proposed : String) : Except Exc (List String) := do
  let left ← members (← loads stored)
  let right ← members (← loads proposed)
  let header := (← unequal left right "env") ++ (← unequal left right "account") ++ (← unequal left right "op_type")
  let left ← members (← Value.item left "params")
  let right ← members (← Value.item right "params")
  return header ++ (allKeys left right).filter (fun key => differs (left.lookup key) (right.lookup key))

mutual

/-- What a parameter asks for: prices are read as the numbers they denote. -/
def meaning (key : String) (v : Value) : Reading :=
  if key = "price" then
    match decimalPrice v with
    | .ok d => .number d.value
    | .error _ => .null
  else
    match v with
    | .list vs => .list (meanings vs)
    | .object fields => .map (fun k => (meaningFields fields).lookup k)
    | v => content v

def meanings : List Value → List Reading
  | [] => []
  | v :: vs => meaning "" v :: meanings vs

def meaningFields : Fields → List (String × Reading)
  | [] => []
  | (k, v) :: fields => (k, meaning k v) :: meaningFields fields

end

variable {k key : String} {v v' w w' : Value} {f f' g g' p q : Fields} {vs vs' ws ws' : List Value}

def Scalar : Value → Prop
  | .list _ | .object _ => False
  | _ => True

theorem canonical_price (h : canonical "price" v = .ok v') : ∃ d, decimalPrice v = .ok d ∧ v' = .text (rendered d) := by
  rw [canonical.eq_def, if_pos rfl] at h
  obtain ⟨d, hd, h⟩ := bind_ok.mp h
  cases h
  exact ⟨d, hd, rfl⟩

theorem canonical_list (hk : key ≠ "price") (h : canonical key (.list vs) = .ok v') :
    ∃ vs', canonicalItems vs = .ok vs' ∧ v' = .list vs' := by
  rw [canonical.eq_def, if_neg hk] at h
  obtain ⟨vs', hvs, h⟩ := bind_ok.mp h
  cases h
  exact ⟨vs', hvs, rfl⟩

theorem canonical_object (hk : key ≠ "price") (h : canonical key (.object f) = .ok v') :
    ∃ f', canonicalFields f = .ok f' ∧ v' = .object f' := by
  rw [canonical.eq_def, if_neg hk] at h
  obtain ⟨f', hf, h⟩ := bind_ok.mp h
  cases h
  exact ⟨f', hf, rfl⟩

theorem canonical_scalar (hk : key ≠ "price") (hv : Scalar v) : canonical key v = .ok v := by
  cases v with
  | list _ | object _ => exact hv.elim
  | null | bool _ | number _ | text _ => rw [canonical.eq_def, if_neg hk]

theorem meaning_scalar (hk : key ≠ "price") (hv : Scalar v) : meaning key v = content v := by
  cases v with
  | list _ | object _ => exact hv.elim
  | null | bool _ | number _ | text _ => rw [meaning.eq_def, if_neg hk]

theorem meaning_list (hk : key ≠ "price") : meaning key (.list vs) = .list (meanings vs) := by
  rw [meaning.eq_def, if_neg hk]

theorem meaningFields_lookup (f : Fields) (k : String) : (meaningFields f).lookup k = (f.lookup k).map (meaning k) := by
  induction f with
  | nil => rfl
  | cons p f ih =>
      obtain ⟨k', v⟩ := p
      rw [meaningFields]
      by_cases hk : k = k'
      · subst hk
        simp
      · have hne : (k == k') = false := by simpa using hk
        simp [List.lookup_cons, hne, ih]

theorem meaning_object (hk : key ≠ "price") :
    meaning key (.object f) = .map (fun k => (f.lookup k).map (meaning k)) := by
  rw [meaning.eq_def, if_neg hk]
  simp only [meaningFields_lookup]

/-- Each field keeps its place. -/
theorem canonicalFields_lookup (h : canonicalFields f = .ok f') (k : String) :
    Option.Rel (fun v v' => canonical k v = .ok v') (f.lookup k) (f'.lookup k) := by
  induction f generalizing f' with
  | nil =>
      cases h
      exact .none
  | cons p f ih =>
      obtain ⟨k', v⟩ := p
      rw [canonicalFields] at h
      obtain ⟨v', hv, h⟩ := bind_ok.mp h
      obtain ⟨g, hg, h⟩ := bind_ok.mp h
      cases h
      by_cases hk : k = k'
      · subst hk
        simpa using Option.Rel.some hv
      · have hne : (k == k') = false := by simpa using hk
        simpa [List.lookup_cons, hne] using ih hg

theorem scalar_apart (hv : Scalar v) : (∀ rs, content v ≠ .list rs) ∧ ∀ m, content v ≠ .map m := by
  cases v with
  | list _ | object _ => exact hv.elim
  | number n => cases n <;> simp [content]
  | null | bool _ | text _ => simp [content]

/-- Prices are the same text exactly if they are the same number. -/
theorem price_iff (hv : canonical "price" v = .ok v') (hw : canonical "price" w = .ok w') :
    content v' = content w' ↔ meaning "price" v = meaning "price" w := by
  obtain ⟨d, hd, rfl⟩ := canonical_price hv
  obtain ⟨e, he, rfl⟩ := canonical_price hw
  rw [meaning.eq_def, if_pos rfl, meaning.eq_def, if_pos rfl, hd, he]
  simp [content, Decimal.rendered_eq_iff]

theorem scalar_iff (hk : key ≠ "price") (hs : Scalar v) (hv : canonical key v = .ok v') (hw : canonical key w = .ok w') :
    content v' = content w' ↔ meaning key v = meaning key w := by
  cases Except.ok.inj ((canonical_scalar hk hs).symm.trans hv)
  rw [meaning_scalar hk hs]
  obtain ⟨hlist, hmap⟩ := scalar_apart hs
  by_cases hsw : Scalar w
  · cases Except.ok.inj ((canonical_scalar hk hsw).symm.trans hw)
    rw [meaning_scalar hk hsw]
  cases w with
  | null | bool _ | number _ | text _ => exact absurd trivial hsw
  | list ws =>
      obtain ⟨ws', -, rfl⟩ := canonical_list hk hw
      rw [meaning_list hk, content]
      exact iff_of_false (hlist _) (hlist _)
  | object g =>
      obtain ⟨g', -, rfl⟩ := canonical_object hk hw
      rw [meaning_object hk, content_object]
      exact iff_of_false (hmap _) (hmap _)

mutual

/-- Canonical values are equal exactly if the same is asked for. -/
theorem canonical_iff : ∀ (key : String) (v w v' w' : Value), canonical key v = .ok v' → canonical key w = .ok w' →
    (content v' = content w' ↔ meaning key v = meaning key w)
  | key, v, w, v', w', hv, hw => by
      by_cases hk : key = "price"
      · subst hk
        exact price_iff hv hw
      by_cases hsw : Scalar w
      · rw [eq_comm, scalar_iff hk hsw hw hv, eq_comm]
      cases v with
      | null | bool _ | number _ | text _ => exact scalar_iff hk trivial hv hw
      | list vs =>
          obtain ⟨vs', hvs, rfl⟩ := canonical_list hk hv
          cases w with
          | null | bool _ | number _ | text _ => exact absurd trivial hsw
          | list ws =>
              obtain ⟨ws', hws, rfl⟩ := canonical_list hk hw
              simpa [content, meaning_list hk] using canonicalItems_iff vs ws vs' ws' hvs hws
          | object g =>
              obtain ⟨g', -, rfl⟩ := canonical_object hk hw
              simp [content, meaning_list hk, meaning_object hk]
      | object f =>
          obtain ⟨f', hf, rfl⟩ := canonical_object hk hv
          cases w with
          | null | bool _ | number _ | text _ => exact absurd trivial hsw
          | list ws =>
              obtain ⟨ws', -, rfl⟩ := canonical_list hk hw
              simp [content, meaning_list hk, meaning_object hk]
          | object g =>
              obtain ⟨g', hg, rfl⟩ := canonical_object hk hw
              rw [content_object_iff, meaning_object hk, meaning_object hk, Reading.map.injEq, funext_iff]
              exact forall_congr' (canonicalFields_iff f g f' g' hf hg)

theorem canonicalItems_iff : ∀ vs ws vs' ws' : List Value, canonicalItems vs = .ok vs' → canonicalItems ws = .ok ws' →
    (contents vs' = contents ws' ↔ meanings vs = meanings ws)
  | [], [], _, _, hv, hw => by
      cases hv
      cases hw
      simp [meanings]
  | [], w :: ws, _, _, hv, hw => by
      rw [canonicalItems] at hw
      obtain ⟨w', -, hw⟩ := bind_ok.mp hw
      obtain ⟨ws', -, hw⟩ := bind_ok.mp hw
      cases hv
      cases hw
      simp [contents, meanings]
  | v :: vs, [], _, _, hv, hw => by
      rw [canonicalItems] at hv
      obtain ⟨v', -, hv⟩ := bind_ok.mp hv
      obtain ⟨vs', -, hv⟩ := bind_ok.mp hv
      cases hv
      cases hw
      simp [contents, meanings]
  | v :: vs, w :: ws, _, _, hv, hw => by
      rw [canonicalItems] at hv hw
      obtain ⟨v', hv', hv⟩ := bind_ok.mp hv
      obtain ⟨vs', hvs, hv⟩ := bind_ok.mp hv
      obtain ⟨w', hw', hw⟩ := bind_ok.mp hw
      obtain ⟨ws', hws, hw⟩ := bind_ok.mp hw
      cases hv
      cases hw
      rw [contents, contents, meanings, meanings, List.cons.injEq, List.cons.injEq, canonical_iff "" v w v' w' hv' hw',
        canonicalItems_iff vs ws vs' ws' hvs hws]

theorem canonicalFields_iff : ∀ f g f' g' : Fields, canonicalFields f = .ok f' → canonicalFields g = .ok g' → ∀ k,
    ((f'.lookup k).map content = (g'.lookup k).map content ↔ (f.lookup k).map (meaning k) = (g.lookup k).map (meaning k))
  | [], g, _, g', hf, hg, k => by
      cases hf
      have hrel := canonicalFields_lookup hg k
      generalize g.lookup k = x, g'.lookup k = y at hrel ⊢
      cases hrel <;> simp
  | (k', v) :: f, g, f', g', hf, hg, k => by
      rw [canonicalFields] at hf
      obtain ⟨v', hv, hf⟩ := bind_ok.mp hf
      obtain ⟨f', hf', hf⟩ := bind_ok.mp hf
      cases hf
      by_cases hk : k = k'
      · subst hk
        have hmember := fun w w' => canonical_iff k v w v' w' hv
        have hrel := canonicalFields_lookup hg k
        generalize g.lookup k = x, g'.lookup k = y at hrel ⊢
        cases hrel with
        | none => simp
        | some hw => simpa using hmember _ _ hw
      · have hne : (k == k') = false := by simpa using hk
        simpa [List.lookup_cons, hne] using canonicalFields_iff f g f' g' hf' hg k

end

mutual

theorem canonical_keyed : ∀ (key : String) (v v' : Value), Keyed v → canonical key v = .ok v' → Keyed v'
  | key, v, v', hv, h => by
      by_cases hk : key = "price"
      · subst hk
        obtain ⟨d, -, rfl⟩ := canonical_price h
        trivial
      by_cases hs : Scalar v
      · cases Except.ok.inj ((canonical_scalar hk hs).symm.trans h)
        exact hv
      cases v with
      | null | bool _ | number _ | text _ => exact absurd trivial hs
      | list vs =>
          obtain ⟨vs', hvs, rfl⟩ := canonical_list hk h
          exact canonicalItems_keyed vs vs' hv hvs
      | object f =>
          obtain ⟨f', hf, rfl⟩ := canonical_object hk h
          obtain ⟨hkeys, hmembers⟩ := canonicalFields_keyed f f' hv.2 hf
          exact ⟨hkeys ▸ hv.1, hmembers⟩

theorem canonicalItems_keyed : ∀ vs vs' : List Value, KeyedAll vs → canonicalItems vs = .ok vs' → KeyedAll vs'
  | [], _, _, h => by
      cases h
      trivial
  | v :: vs, _, hv, h => by
      rw [canonicalItems] at h
      obtain ⟨v', hv', h⟩ := bind_ok.mp h
      obtain ⟨vs', hvs, h⟩ := bind_ok.mp h
      cases h
      exact ⟨canonical_keyed "" v v' hv.1 hv', canonicalItems_keyed vs vs' hv.2 hvs⟩

theorem canonicalFields_keyed : ∀ f f' : Fields, KeyedFields f → canonicalFields f = .ok f' →
    keys f' = keys f ∧ KeyedFields f'
  | [], _, _, h => by
      cases h
      exact ⟨rfl, trivial⟩
  | (k, v) :: f, _, hf, h => by
      rw [canonicalFields] at h
      obtain ⟨v', hv, h⟩ := bind_ok.mp h
      obtain ⟨f', hf', h⟩ := bind_ok.mp h
      cases h
      obtain ⟨hkeys, hmembers⟩ := canonicalFields_keyed f f' hf.2 hf'
      exact ⟨congrArg (k :: ·) hkeys, canonical_keyed k v v' hf.1 hv, hmembers⟩

end

variable {env env' kind kind' s t : String} {a b : Account}

/-- What is read of a request. -/
def readRequest (env : String) (a : Account) (kind : String) (params : Fields) : Fields :=
  [("account", .text (toString a)), ("env", .text env), ("op_type", .text kind), ("params", .object params)]

/-- What is read from the text of a request. -/
theorem canonicalizeRequest_loads (h : canonicalizeRequest env a kind p = .ok s) :
    ∃ p' l, canonicalFields p = .ok p' ∧ allowedFields p' = .ok () ∧ reread (sortKeys (.object p')) = .object l ∧
      loads s = .ok (.object (readRequest env a kind l)) := by
  obtain ⟨v, hv, h⟩ := bind_ok.mp h
  obtain ⟨p', hp', rfl⟩ := canonical_object (by decide) hv
  have hload : loads s = .ok (reread (sortKeys (request env a kind (.object p')))) := loads_dumps h
  obtain ⟨_, ha, -⟩ := bind_ok.mp h
  rw [allowed, allowedFields_iff] at ha
  obtain ⟨l, hl⟩ : ∃ l, reread (sortKeys (.object p')) = .object l := by
    rw [sortKeys_object, reread]
    exact ⟨_, rfl⟩
  refine ⟨p', l, hp', ha ("params", .object p') (by simp), hl, ?_⟩
  rw [hload, sortKeys_request]
  simp only [reread, rereadFields, hl]
  rfl

theorem canonicalizeRequest_ok (hp : Keyed (.object p)) (h : canonicalizeRequest env a kind p = .ok s) :
    ∃ p' l, canonicalFields p = .ok p' ∧ Regular (.object p') ∧ reread (sortKeys (.object p')) = .object l ∧
      loads s = .ok (.object (readRequest env a kind l)) := by
  obtain ⟨p', l, hp', ha, hl, hload⟩ := canonicalizeRequest_loads h
  obtain ⟨hkeys, hkeyed⟩ := canonicalFields_keyed p p' hp.2 hp'
  exact ⟨p', l, hp', regular_of_allowed (.object p') ⟨hkeys ▸ hp.1, hkeyed⟩ ha, hl, hload⟩

/-- Where the canonical parameters can be written, the request can. -/
theorem canonicalizeRequest_written {p' : Fields} (hp : canonicalFields p = .ok p') (ha : allowedFields p' = .ok ()) :
    ∃ s, canonicalizeRequest env a kind p = .ok s := by
  have hcanonical : canonical "" (.object p) = .ok (.object p') := by
    rw [canonical.eq_def, if_neg (by decide)]
    exact bind_ok.mpr ⟨p', hp, rfl⟩
  have hallowed : allowed (request env a kind (.object p')) = .ok () := by
    rw [request, allowed, allowedFields_iff]
    simp [allowed, ha]
  exact ⟨_, bind_ok.mpr ⟨_, hcanonical, dumps_of_allowed hallowed⟩⟩

theorem mem_allKeys {l r : Fields} (hl : (keys l).Nodup) (hr : (keys r).Nodup) :
    k ∈ allKeys l r ↔ ¬(l.lookup k = none ∧ r.lookup k = none) := by
  rw [allKeys, List.mem_insertionSort, List.mem_dedup, List.mem_append, mem_keys_iff hl, mem_keys_iff hr]
  cases l.lookup k <;> cases r.lookup k <;> simp

theorem allKeys_sorted (l r : Fields) : (allKeys l r).Pairwise (· < ·) := by
  have hsorted := List.pairwise_insertionSort (· ≤ ·) (keys l ++ keys r).dedup
  have hnodup : (allKeys l r).Nodup := (List.perm_insertionSort _ _).nodup_iff.mpr (List.nodup_dedup _)
  exact (hsorted.and hnodup).imp (fun ⟨hle, hne⟩ => lt_of_le_of_ne hle hne)

theorem differs_iff {x y : Option Value} (hx : ∀ v ∈ x, Regular v) (hy : ∀ v ∈ y, Regular v) :
    differs x y = true ↔ x.map content ≠ y.map content := by
  cases x with
  | none => cases y <;> simp [differs]
  | some v =>
      cases y with
      | none => simp [differs]
      | some w =>
          rw [differs, Option.map_some, Option.map_some, ne_eq, Option.some.injEq, ← same_iff v w (hx v rfl) (hy w rfl)]
          simp

/-- What a request asks for under a name, if it has that parameter. -/
def asked (p : Fields) (k : String) : Option Reading := (p.lookup k).map (meaning k)

def opType : Kind → String
  | .place => "PLACE"
  | .placeCombo => "PLACE_COMBO"
  | .modify => "MODIFY"
  | .cancel => "CANCEL"

theorem opType_inj {kind kind' : Kind} : opType kind = opType kind' ↔ kind = kind' := by
  cases kind <;> cases kind' <;> decide

/-- The parts of the header in which two requests differ. -/
def header (env env' : String) (a b : Account) (kind kind' : String) : List String :=
  (if env = env' then [] else ["env"]) ++ (if a = b then [] else ["account"]) ++ (if kind = kind' then [] else ["op_type"])

theorem header_eq_nil : header env env' a b kind kind' = [] ↔ env = env' ∧ a = b ∧ kind = kind' := by
  rw [header, List.append_eq_nil_iff, List.append_eq_nil_iff, and_assoc]
  simp

/-- The parameters as they are read back. -/
theorem stored_params {l : Fields} (hp : Regular (.object p)) (hl : reread (sortKeys (.object p)) = .object l) :
    Regular (.object l) ∧ ∀ k, (l.lookup k).map content = (p.lookup k).map content := by
  obtain ⟨hcontent, hregular⟩ := content_stored (.object p) hp
  rw [hl] at hcontent hregular
  exact ⟨hregular, content_object_iff.mp hcontent⟩

theorem unequal_text {l r : Fields} {x y : String} (hl : l.lookup k = some (.text x)) (hr : r.lookup k = some (.text y)) :
    unequal l r k = .ok (if x = y then [] else [k]) := by
  rw [unequal, Value.item, Value.item, hl, hr]
  by_cases hxy : x = y <;> simp [bind, Except.bind, pure, Except.pure, same, hxy]

theorem differingFields_eq {l r : Fields} (hs : loads s = .ok (.object (readRequest env a kind l)))
    (ht : loads t = .ok (.object (readRequest env' b kind' r))) :
    differingFields s t = .ok (header env env' a b kind kind' ++
      (allKeys l r).filter (fun k => differs (l.lookup k) (r.lookup k))) := by
  have haccount : (toString a = toString b) ↔ a = b := repr_eq_iff
  have henv : unequal (readRequest env a kind l) (readRequest env' b kind' r) "env" = _ := unequal_text rfl rfl
  have hacc : unequal (readRequest env a kind l) (readRequest env' b kind' r) "account" = _ := unequal_text rfl rfl
  have hop : unequal (readRequest env a kind l) (readRequest env' b kind' r) "op_type" = _ := unequal_text rfl rfl
  simp only [haccount] at hacc
  refine bind_ok.mpr ⟨_, hs, bind_ok.mpr ⟨_, rfl, bind_ok.mpr ⟨_, ht, bind_ok.mpr ⟨_, rfl, ?_⟩⟩⟩⟩
  exact bind_ok.mpr ⟨_, henv, bind_ok.mpr ⟨_, hacc, bind_ok.mpr ⟨_, hop, rfl⟩⟩⟩

theorem schema_price {kind : Kind} (hp : (keys p).Nodup) (h : PaperRequests.schema kind p = .ok ()) :
    ∀ f ∈ p, f.1 = "price" → ∃ d, decimalPrice f.2 = .ok d := by
  rintro ⟨k, v⟩ hf rfl
  have hv : p.lookup "price" = some v := (mem_iff_lookup hp v).mp hf
  rw [PaperRequests.schema] at h
  simp only [PaperRequests.has, Value.get, hv, Option.isSome_some, Option.getD_some, if_true] at h
  obtain ⟨d, hd, -⟩ := bind_ok.mp h
  exact ⟨d, hd⟩

/-- Scalars, and prices that denote a number, have a canonical form. -/
theorem canonicalFields_exists (hs : ∀ f ∈ p, Scalar f.2) (hp : ∀ f ∈ p, f.1 = "price" → ∃ d, decimalPrice f.2 = .ok d)
    (ha : allowedFields p = .ok ()) : ∃ p', canonicalFields p = .ok p' ∧ allowedFields p' = .ok () := by
  induction p with
  | nil => exact ⟨[], rfl, rfl⟩
  | cons f p ih =>
      obtain ⟨k, v⟩ := f
      rw [List.forall_mem_cons] at hs hp
      rw [allowedFields] at ha
      obtain ⟨_, hv, hrest⟩ := bind_ok.mp ha
      obtain ⟨p', hp', ha'⟩ := ih hs.2 hp.2 hrest
      have hcanonical : ∃ v', canonical k v = .ok v' ∧ allowed v' = .ok () := by
        by_cases hk : k = "price"
        · obtain ⟨d, hd⟩ := hp.1 hk
          subst hk
          refine ⟨.text (rendered d), ?_, rfl⟩
          rw [canonical.eq_def, if_pos rfl, hd]
          rfl
        · exact ⟨v, canonical_scalar hk hs.1, hv⟩
      obtain ⟨v', hv', hav⟩ := hcanonical
      refine ⟨(k, v') :: p', ?_, ?_⟩
      · rw [canonicalFields, hv', hp']
        rfl
      · rw [allowedFields, hav]
        exact ha'

/-- Two requests differ exactly in the fields that are listed: parts of the header,
names that only one of them has, prices that denote different numbers, and other
values that are not equal. Requests that the schema accepts have a text. -/
theorem paper_request_identity {kind kind' : Kind} (hp : Keyed (.object p)) (hq : Keyed (.object q)) :
    (∀ s t, canonicalizeRequest env a (opType kind) p = .ok s → canonicalizeRequest env' b (opType kind') q = .ok t →
      (∃ terms, differingFields s t = .ok (header env env' a b (opType kind) (opType kind') ++ terms) ∧
        terms.Pairwise (· < ·) ∧ ∀ k, k ∈ terms ↔ asked p k ≠ asked q k) ∧
      (differingFields s t = .ok [] ↔ env = env' ∧ a = b ∧ kind = kind' ∧ ∀ k, asked p k = asked q k)) ∧
    (PaperRequests.schema kind p = .ok () → allowed (.object p) = .ok () → (∀ f ∈ p, Scalar f.2) →
      ∃ s, canonicalizeRequest env a (opType kind) p = .ok s) := by
  constructor
  · intro s t hs ht
    obtain ⟨p', l, hp', hrp, hl, hls⟩ := canonicalizeRequest_ok hp hs
    obtain ⟨q', r, hq', hrq, hr, hlt⟩ := canonicalizeRequest_ok hq ht
    obtain ⟨hrl, hcl⟩ := stored_params hrp hl
    obtain ⟨hrr, hcr⟩ := stored_params hrq hr
    have hregular : ∀ {f : Fields}, Regular (.object f) → ∀ k, ∀ v ∈ f.lookup k, Regular v := fun hf k v hv =>
      regularFields_iff.mp hf.2 (k, v) ((mem_iff_lookup hf.1 v).mpr hv)
    have hdiffers : ∀ k, differs (l.lookup k) (r.lookup k) = true ↔ asked p k ≠ asked q k := by
      intro k
      rw [differs_iff (hregular hrl k) (hregular hrr k), hcl, hcr, ne_eq, canonicalFields_iff p q p' q' hp' hq' k]
      rfl
    have hterms : ∀ k, k ∈ (allKeys l r).filter (fun k => differs (l.lookup k) (r.lookup k)) ↔ asked p k ≠ asked q k := by
      intro k
      rw [List.mem_filter, mem_allKeys hrl.1 hrr.1, hdiffers, and_iff_right_iff_imp]
      rintro hne ⟨hnl, hnr⟩
      apply (hdiffers k).mpr at hne
      rw [hnl, hnr] at hne
      cases hne
    have heq := differingFields_eq hls hlt
    refine ⟨⟨_, heq, (allKeys_sorted l r).filter _, hterms⟩, ?_⟩
    rw [heq, Except.ok.injEq, List.append_eq_nil_iff, header_eq_nil, opType_inj, List.eq_nil_iff_forall_not_mem]
    simp only [hterms, not_not, and_assoc]
  · intro hschema ha hscalar
    rw [allowed] at ha
    obtain ⟨p', hp', hap⟩ := canonicalFields_exists hscalar (schema_price hp.1 hschema) ha
    exact canonicalizeRequest_written hp' hap

/-- More zeros around the price, and another quantity. -/
theorem padded_price : ∃ s t,
    canonicalizeRequest "SIMULATE" 7 "MODIFY" [("order_id", .text "5"), ("price", .text "010.50"),
      ("qty", .number (.finite ⟨1, 0⟩))] = .ok s ∧
    canonicalizeRequest "SIMULATE" 7 "MODIFY" [("order_id", .text "5"), ("price", .text "10.5"),
      ("qty", .number (.finite ⟨2, 0⟩))] = .ok t ∧ differingFields s t ≠ .ok [] := by
  have hp : Keyed (.object [("order_id", .text "5"), ("price", .text "010.50"), ("qty", .number (.finite ⟨1, 0⟩))]) :=
    ⟨by decide, trivial, trivial, trivial, trivial⟩
  have hq : Keyed (.object [("order_id", .text "5"), ("price", .text "10.5"), ("qty", .number (.finite ⟨2, 0⟩))]) :=
    ⟨by decide, trivial, trivial, trivial, trivial⟩
  have hpq := @paper_request_identity _ _ "SIMULATE" "SIMULATE" 7 7 .modify .modify hp hq
  have hqp := @paper_request_identity _ _ "SIMULATE" "SIMULATE" 7 7 .modify .modify hq hp
  obtain ⟨s, hs⟩ := hpq.2 (by decide +kernel) rfl (by simp [Scalar])
  obtain ⟨t, ht⟩ := hqp.2 (by decide +kernel) rfl (by simp [Scalar])
  refine ⟨s, t, hs, ht, fun h => ?_⟩
  obtain ⟨-, -, -, hasked⟩ := (hpq.1 s t hs ht).2.mp h
  have hqty := hasked "qty"
  simp [asked, List.lookup_cons, meaning, content, Decimal.amount, Decimal.isInt, Decimal.value] at hqty

end MoomooMcp.PaperIdentity
