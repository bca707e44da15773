import MoomooMcp.Readings

namespace MoomooMcp

/-- The exact number: that of a float is the double its decimal stands for. -/
def Decimal.amount (d : Decimal) : ℚ := if d.isInt then d.value else nearestDouble d.value

namespace Json

open Intent

abbrev Fields := List (String × Value)

/-- The number that a value is compared as: truth values are numbers too. -/
def amount? : Value → Option ℚ
  | .bool b => some (if b then 1 else 0)
  | .number (.finite d) => some d.amount
  | _ => none

mutual

/-- `v == w`. -/
def same : Value → Value → Bool
  | .null, .null => true
  | .text s, .text t => s = t
  | .list vs, .list ws => sameAll vs ws
  | .object f, .object g => decide (f.length = g.length) && sameFields f g
  | .bool b, w => amount? w = some (if b then 1 else 0)
  | .number (.finite d), w => amount? w = some d.amount
  | _, _ => false

def sameAll : List Value → List Value → Bool
  | [], [] => true
  | v :: vs, w :: ws => same v w && sameAll vs ws
  | _, _ => false

/-- Whether the other object has the same value for each of these fields. -/
def sameFields : Fields → Fields → Bool
  | [], _ => true
  | (k, v) :: f, g =>
      (match g.lookup k with
        | some w => same v w
        | none => false) && sameFields f g

end

mutual

/-- What a comparison reads of a value: truth values as numbers, floats as the
doubles they are, and no order of fields. -/
def content : Value → Reading
  | .null => .null
  | .bool b => .number (if b then 1 else 0)
  | .number (.finite d) => .number d.amount
  | .number .nonFinite => .nonFinite
  | .text s => .text s
  | .list vs => .list (contents vs)
  | .object fields => .map (fun k => (contentFields fields).lookup k)

def contents : List Value → List Reading
  | [] => []
  | v :: vs => content v :: contents vs

def contentFields : Fields → List (String × Reading)
  | [] => []
  | (k, v) :: fields => (k, content v) :: contentFields fields

end

mutual

/-- A value that can be stored: no key twice in an object, and every number finite. -/
def Regular : Value → Prop
  | .number .nonFinite => False
  | .list vs => RegularAll vs
  | .object fields => (keys fields).Nodup ∧ RegularFields fields
  | _ => True

def RegularAll : List Value → Prop
  | [] => True
  | v :: vs => Regular v ∧ RegularAll vs

def RegularFields : Fields → Prop
  | [] => True
  | (_, v) :: fields => Regular v ∧ RegularFields fields

end

theorem contentFields_eq (fields : Fields) : contentFields fields = fields.map (fun p => (p.1, content p.2)) := by
  induction fields with
  | nil => rfl
  | cons p fields ih => rw [contentFields, ih, List.map_cons]

theorem content_object (fields : Fields) : content (.object fields) = .map (fun k => (fields.lookup k).map content) := by
  rw [content, contentFields_eq]
  congr 1
  funext k
  exact lookup_map content fields k

theorem content_object_iff {f g : Fields} :
    content (.object f) = content (.object g) ↔ ∀ k, (f.lookup k).map content = (g.lookup k).map content := by
  rw [content_object, content_object, Reading.map.injEq, funext_iff]

theorem regularFields_iff {fields : Fields} : RegularFields fields ↔ ∀ p ∈ fields, Regular p.2 := by
  induction fields with
  | nil => simp [RegularFields]
  | cons p fields ih => rw [RegularFields, ih, List.forall_mem_cons]

section Entries

variable {β γ : Type} {f g : List (String × β)} {k : String}

theorem mem_keys_iff (hf : (keys f).Nodup) : k ∈ keys f ↔ ∃ v, f.lookup k = some v := by
  rw [keys, List.mem_map]
  constructor
  · rintro ⟨⟨k, v⟩, hp, rfl⟩
    exact ⟨v, (mem_iff_lookup hf v).mp hp⟩
  · rintro ⟨v, hv⟩
    exact ⟨(k, v), (mem_iff_lookup hf v).mpr hv, rfl⟩

theorem lookup_of_perm (hf : (keys f).Nodup) (h : f.Perm g) (k : String) : f.lookup k = g.lookup k := by
  have hg : (keys g).Nodup := (h.map Prod.fst).nodup_iff.mp hf
  apply Option.ext
  intro v
  rw [← mem_iff_lookup hf, ← mem_iff_lookup hg, h.mem_iff]

/-- Objects of the same size agree if the one has what the other has. -/
theorem agree_iff (φ : β → γ) (hf : (keys f).Nodup) (hg : (keys g).Nodup) :
    (f.length = g.length ∧ ∀ p ∈ f, ∃ w, g.lookup p.1 = some w ∧ φ p.2 = φ w) ↔
      ∀ k, (f.lookup k).map φ = (g.lookup k).map φ := by
  have hlength : ∀ h : List (String × β), h.length = (keys h).length := fun h => (List.length_map _).symm
  constructor
  · rintro ⟨hlen, hall⟩ k
    have hsub : keys f ⊆ keys g := by
      intro k hk
      obtain ⟨v, hv⟩ := (mem_keys_iff hf).mp hk
      obtain ⟨w, hw, -⟩ := hall (k, v) ((mem_iff_lookup hf v).mpr hv)
      exact (mem_keys_iff hg).mpr ⟨w, hw⟩
    rw [hlength f, hlength g] at hlen
    have hperm : (keys f).Perm (keys g) := (hf.subperm hsub).perm_of_length_le hlen.ge
    cases hv : f.lookup k with
    | some v =>
        obtain ⟨w, hw, hvw⟩ := hall (k, v) ((mem_iff_lookup hf v).mpr hv)
        rw [hw, Option.map_some, Option.map_some, hvw]
    | none =>
        cases hw : g.lookup k with
        | none => rfl
        | some w =>
            have hk : k ∈ keys f := hperm.mem_iff.mpr ((mem_keys_iff hg).mpr ⟨w, hw⟩)
            obtain ⟨v, hv'⟩ := (mem_keys_iff hf).mp hk
            rw [hv] at hv'
            cases hv'
  · intro h
    have hperm : (keys f).Perm (keys g) := by
      rw [List.perm_ext_iff_of_nodup hf hg]
      intro k
      have hk := congrArg Option.isSome (h k)
      rw [Option.isSome_map, Option.isSome_map, Bool.eq_iff_iff, Option.isSome_iff_exists, Option.isSome_iff_exists] at hk
      rw [mem_keys_iff hf, mem_keys_iff hg, hk]
    refine ⟨?_, ?_⟩
    · rw [hlength f, hlength g, hperm.length_eq]
    · rintro ⟨k, v⟩ hp
      have hk := h k
      rw [(mem_iff_lookup hf v).mp hp, Option.map_some, eq_comm, Option.map_eq_some_iff] at hk
      obtain ⟨w, hw, hvw⟩ := hk
      exact ⟨w, hw, hvw.symm⟩

end Entries

theorem amount_iff {v : Value} (hv : Regular v) (q : ℚ) : amount? v = some q ↔ content v = .number q := by
  cases v with
  | number n =>
      cases n with
      | finite d => simp [amount?, content]
      | nonFinite => exact hv.elim
  | bool b => simp [amount?, content]
  | null | text _ | list _ | object _ => simp [amount?, content]

mutual

/-- Stored values are equal exactly if a comparison reads the same of both. -/
theorem same_iff : ∀ v w : Value, Regular v → Regular w → (same v w = true ↔ content v = content w)
  | .null, w, _, hw => by
      cases w with
      | number n => cases n <;> simp [same, content]
      | null | bool _ | text _ | list _ | object _ => simp [same, content]
  | .text s, w, _, hw => by
      cases w with
      | number n => cases n <;> simp [same, content]
      | null | bool _ | text _ | list _ | object _ => simp [same, content]
  | .bool b, w, _, hw => by
      rw [same, decide_eq_true_eq, amount_iff hw, content]
      exact eq_comm
  | .number .nonFinite, w, hv, _ => hv.elim
  | .number (.finite d), w, _, hw => by
      rw [same, decide_eq_true_eq, amount_iff hw, content]
      exact eq_comm
  | .list vs, w, hv, hw => by
      cases w with
      | number n => cases n <;> simp [same, content]
      | list ws => simpa [same, content] using sameAll_iff vs ws hv hw
      | null | bool _ | text _ | object _ => simp [same, content]
  | .object f, w, hv, hw => by
      cases w with
      | number n => cases n <;> simp [same, content]
      | object g =>
          rw [same, Bool.and_eq_true, decide_eq_true_eq, sameFields_iff f hv.2 g hw, content_object_iff]
          exact agree_iff content hv.1 hw.1
      | null | bool _ | text _ | list _ => simp [same, content]

theorem sameAll_iff : ∀ vs ws : List Value, RegularAll vs → RegularAll ws →
    (sameAll vs ws = true ↔ contents vs = contents ws)
  | [], [], _, _ => by simp [sameAll, contents]
  | [], w :: ws, _, _ => by simp [sameAll, contents]
  | v :: vs, [], _, _ => by simp [sameAll, contents]
  | v :: vs, w :: ws, hv, hw => by
      rw [sameAll, Bool.and_eq_true, same_iff v w hv.1 hw.1, sameAll_iff vs ws hv.2 hw.2, contents, contents,
        List.cons.injEq]

theorem sameFields_iff : ∀ f : Fields, RegularFields f → ∀ g : Fields, Regular (.object g) →
    (sameFields f g = true ↔ ∀ p ∈ f, ∃ w, g.lookup p.1 = some w ∧ content p.2 = content w)
  | [], _, g, _ => by simp [sameFields]
  | (k, v) :: f, hf, g, hg => by
      rw [sameFields, Bool.and_eq_true, sameFields_iff f hf.2 g hg, List.forall_mem_cons]
      apply and_congr_left
      intro _
      cases hk : g.lookup k with
      | none => simp
      | some w =>
          have hw : Regular w := regularFields_iff.mp hg.2 (k, w) ((mem_iff_lookup hg.1 w).mpr hk)
          simpa using same_iff v w hf.1 hw

end

theorem lookup_sorted {β : Type} {f : List (String × β)} (hf : (keys f).Nodup) (k : String) :
    (f.insertionSort before).lookup k = f.lookup k :=
  (lookup_of_perm hf (List.perm_insertionSort before f).symm k).symm

theorem keys_sorted {β : Type} (f : List (String × β)) : (keys (f.insertionSort before)).Perm (keys f) :=
  (List.perm_insertionSort before f).map Prod.fst

theorem sortKeys_object (fields : Fields) :
    sortKeys (.object fields) = .object ((fields.map (fun p => (p.1, sortKeys p.2))).insertionSort before) := by
  rw [sortKeys, sortKeysFields_eq]
  rfl

theorem rereadFields_eq (fields : Fields) : rereadFields fields = fields.map (fun p => (p.1, reread p.2)) := by
  induction fields with
  | nil => rfl
  | cons p fields ih => rw [rereadFields, ih, List.map_cons]

theorem rereadNumber_amount (d : Decimal) : (rereadNumber d).amount = d.amount := by
  rw [Decimal.amount, Decimal.amount, rereadNumber_value, rereadNumber_isInt]

mutual

/-- Writing a value with its keys in order and reading it again changes nothing that is compared. -/
theorem content_stored : ∀ v : Value, Regular v → content (reread (sortKeys v)) = content v ∧ Regular (reread (sortKeys v))
  | .null, _ | .bool _, _ | .text _, _ => by simp [sortKeys, reread, Regular]
  | .number .nonFinite, h => h.elim
  | .number (.finite d), _ => by
      simp only [sortKeys, reread, content, Regular, and_true]
      rw [rereadNumber_amount]
  | .list vs, h => by
      obtain ⟨hcontents, hregular⟩ := contents_stored vs h
      simp only [sortKeys, reread, content]
      exact ⟨congrArg Reading.list hcontents, hregular⟩
  | .object fields, h => by
      have hmembers := members_stored fields h.2
      have hkeys : (keys (fields.map (fun p => (p.1, sortKeys p.2)))).Nodup := by
        rw [keys_map sortKeys]
        exact h.1
      rw [sortKeys_object, reread, rereadFields_eq]
      constructor
      · rw [content_object_iff]
        intro k
        rw [lookup_map reread, lookup_sorted hkeys, lookup_map sortKeys, Option.map_map, Option.map_map]
        apply Option.map_congr
        intro v hv
        exact (hmembers (k, v) ((mem_iff_lookup h.1 v).mpr hv)).1
      · refine ⟨?_, regularFields_iff.mpr (fun p hp => ?_)⟩
        · rw [keys_map reread, (keys_sorted _).nodup_iff]
          exact hkeys
        · obtain ⟨q, hq, rfl⟩ := List.mem_map.mp hp
          obtain ⟨r, hr, rfl⟩ := List.mem_map.mp ((List.mem_insertionSort before).mp hq)
          exact (hmembers r hr).2

theorem contents_stored : ∀ vs : List Value, RegularAll vs →
    contents (rereadAll (sortKeysAll vs)) = contents vs ∧ RegularAll (rereadAll (sortKeysAll vs))
  | [], _ => ⟨rfl, trivial⟩
  | v :: vs, h => by
      obtain ⟨hv, hrv⟩ := content_stored v h.1
      obtain ⟨hvs, hrvs⟩ := contents_stored vs h.2
      simp only [sortKeysAll, rereadAll, contents, hv, hvs]
      exact ⟨trivial, hrv, hrvs⟩

theorem members_stored : ∀ fields : Fields, RegularFields fields → ∀ p ∈ fields,
    content (reread (sortKeys p.2)) = content p.2 ∧ Regular (reread (sortKeys p.2))
  | [], _, p, hp => absurd hp List.not_mem_nil
  | (k, v) :: fields, h, p, hp => by
      rcases List.mem_cons.mp hp with rfl | hp
      · exact content_stored v h.1
      · exact members_stored fields h.2 p hp

end

mutual

/-- A value of a program: no dictionary has a key twice. -/
def Keyed : Value → Prop
  | .list vs => KeyedAll vs
  | .object fields => (keys fields).Nodup ∧ KeyedFields fields
  | _ => True

def KeyedAll : List Value → Prop
  | [] => True
  | v :: vs => Keyed v ∧ KeyedAll vs

def KeyedFields : Fields → Prop
  | [] => True
  | (_, v) :: fields => Keyed v ∧ KeyedFields fields

end

theorem keyedFields_iff {fields : Fields} : KeyedFields fields ↔ ∀ p ∈ fields, Keyed p.2 := by
  induction fields with
  | nil => simp [KeyedFields]
  | cons p fields ih => rw [KeyedFields, ih, List.forall_mem_cons]

mutual

theorem regular_of_allowed : ∀ v : Value, Keyed v → allowed v = .ok () → Regular v
  | .null, _, _ | .bool _, _, _ | .text _, _, _ => by simp [Regular]
  | .number .nonFinite, _, h => nomatch h
  | .number (.finite _), _, _ => trivial
  | .list vs, hk, h => regularAll_of_allowed vs hk h
  | .object fields, hk, h => ⟨hk.1, regularFields_of_allowed fields hk.2 h⟩

theorem regularAll_of_allowed : ∀ vs : List Value, KeyedAll vs → allowedAll vs = .ok () → RegularAll vs
  | [], _, _ => trivial
  | v :: vs, hk, h => by
      rw [allowedAll] at h
      obtain ⟨_, hv, hvs⟩ := Checks.bind_ok.mp h
      exact ⟨regular_of_allowed v hk.1 hv, regularAll_of_allowed vs hk.2 hvs⟩

theorem regularFields_of_allowed : ∀ fields : Fields, KeyedFields fields → allowedFields fields = .ok () →
    RegularFields fields
  | [], _, _ => trivial
  | (_, v) :: fields, hk, h => by
      rw [allowedFields] at h
      obtain ⟨_, hv, hf⟩ := Checks.bind_ok.mp h
      exact ⟨regular_of_allowed v hk.1 hv, regularFields_of_allowed fields hk.2 hf⟩

end

end Json

end MoomooMcp
