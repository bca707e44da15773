import Mathlib.Data.List.Sort
import Mathlib.Data.String.Basic
import MoomooMcp.Checks
import MoomooMcp.JsonRoundTrip

namespace MoomooMcp

/-- What a value says: a number is a number however it is written, and the fields
of an object have no order. -/
inductive Reading
  | null
  | bool (b : Bool)
  | number (q : ℚ)
  | nonFinite
  | text (s : String)
  | list (rs : List Reading)
  | map (entries : String → Option Reading)

namespace Json

open Intent

section Entries

variable {β γ : Type} {f g : List (String × β)} {k : String}

/-- The order of the fields of an object. -/
def before (p q : String × β) : Prop := p.1 ≤ q.1

instance : DecidableRel (before (β := β)) := fun p q => inferInstanceAs (Decidable (p.1 ≤ q.1))

instance : Std.Total (before (β := β)) := ⟨fun p q => le_total p.1 q.1⟩

instance : IsTrans (String × β) before := ⟨fun _ _ _ => le_trans⟩

def keys (f : List (String × β)) : List String := f.map Prod.fst

theorem mem_iff_lookup (hf : (keys f).Nodup) (v : β) : (k, v) ∈ f ↔ f.lookup k = some v := by
  induction f with
  | nil => simp
  | cons p f ih =>
      obtain ⟨k', v'⟩ := p
      rw [keys, List.map_cons, List.nodup_cons] at hf
      by_cases hk : k = k'
      · subst hk
        have hnot : (k, v) ∉ f := fun hv => hf.1 (List.mem_map.mpr ⟨(k, v), hv, rfl⟩)
        simp [hnot, eq_comm]
      · have hne : (k == k') = false := by simpa using hk
        simp [hk, List.lookup_cons, hne, ih hf.2]

theorem lookup_map (φ : β → γ) (f : List (String × β)) (k : String) :
    (f.map (fun p => (p.1, φ p.2))).lookup k = (f.lookup k).map φ := by
  induction f with
  | nil => rfl
  | cons p f ih =>
      obtain ⟨k', v⟩ := p
      by_cases hk : k = k'
      · simp [hk]
      · have hne : (k == k') = false := by simpa using hk
        simp [List.lookup_cons, hne, ih]

theorem keys_map (φ : β → γ) (f : List (String × β)) : keys (f.map (fun p => (p.1, φ p.2))) = keys f := by
  simp [keys, Function.comp_def]

/-- In sorted order an object is determined by what its keys lead to. -/
theorem sorted_eq_iff (hf : (keys f).Nodup) (hg : (keys g).Nodup) :
    f.insertionSort before = g.insertionSort before ↔ ∀ k, f.lookup k = g.lookup k := by
  constructor
  · intro h k
    apply Option.ext
    intro v
    rw [← mem_iff_lookup hf, ← mem_iff_lookup hg, ← List.mem_insertionSort before, h, List.mem_insertionSort]
  · intro h
    have hperm : f.Perm g := by
      rw [List.perm_ext_iff_of_nodup hf.of_map hg.of_map]
      rintro ⟨k, v⟩
      rw [mem_iff_lookup hf, mem_iff_lookup hg, h]
    have hsorted := (List.perm_insertionSort before f).trans (hperm.trans (List.perm_insertionSort before g).symm)
    refine List.Perm.eq_of_pairwise ?_ (List.pairwise_insertionSort before f) (List.pairwise_insertionSort before g) hsorted
    rintro ⟨k, v⟩ ⟨k', v'⟩ hp hq hle hge
    obtain rfl : k = k' := le_antisymm hle hge
    have hv := (mem_iff_lookup hf _).mp ((List.mem_insertionSort before).mp hp)
    have hv' := (mem_iff_lookup hg _).mp ((List.mem_insertionSort before).mp hq)
    rw [h, hv'] at hv
    cases hv
    rfl

end Entries

mutual

/-- The value with every number as an object that holds its canonical text. -/
def wrap : Value → Value
  | .number (.finite d) => .object [("number", .text (rendered d))]
  | .list vs => .list (wrapAll vs)
  | .object fields => .object (wrapFields fields)
  | v => v

def wrapAll : List Value → List Value
  | [] => []
  | v :: vs => wrap v :: wrapAll vs

def wrapFields : List (String × Value) → List (String × Value)
  | [] => []
  | (k, v) :: fields => (k, wrap v) :: wrapFields fields

end

mutual

def reading : Value → Reading
  | .null => .null
  | .bool b => .bool b
  | .number (.finite d) => .number d.value
  | .number .nonFinite => .nonFinite
  | .text s => .text s
  | .list vs => .list (readings vs)
  | .object fields => .map (fun k => (readingFields fields).lookup k)

def readings : List Value → List Reading
  | [] => []
  | v :: vs => reading v :: readings vs

def readingFields : List (String × Value) → List (String × Reading)
  | [] => []
  | (k, v) :: fields => (k, reading v) :: readingFields fields

end

mutual

/-- A value as a caller can have it: no key twice in an object, and no object
that looks like a wrapped number. -/
def Plain : Value → Prop
  | .list vs => PlainAll vs
  | .object fields => (keys fields).Nodup ∧ (∀ s, fields ≠ [("number", .text s)]) ∧ PlainFields fields
  | _ => True

def PlainAll : List Value → Prop
  | [] => True
  | v :: vs => Plain v ∧ PlainAll vs

def PlainFields : List (String × Value) → Prop
  | [] => True
  | (_, v) :: fields => Plain v ∧ PlainFields fields

end

theorem sortKeysFields_eq (fields : List (String × Value)) :
    sortKeysFields fields = fields.map (fun p => (p.1, sortKeys p.2)) := by
  induction fields with
  | nil => rfl
  | cons p fields ih => rw [sortKeysFields, ih, List.map_cons]

theorem wrapFields_eq (fields : List (String × Value)) : wrapFields fields = fields.map (fun p => (p.1, wrap p.2)) := by
  induction fields with
  | nil => rfl
  | cons p fields ih => rw [wrapFields, ih, List.map_cons]

theorem readingFields_eq (fields : List (String × Value)) :
    readingFields fields = fields.map (fun p => (p.1, reading p.2)) := by
  induction fields with
  | nil => rfl
  | cons p fields ih => rw [readingFields, ih, List.map_cons]

theorem plainFields_iff {fields : List (String × Value)} : PlainFields fields ↔ ∀ p ∈ fields, Plain p.2 := by
  induction fields with
  | nil => simp [PlainFields]
  | cons p fields ih => rw [PlainFields, ih, List.forall_mem_cons]

/-- What identifies a value: its numbers wrapped, its fields in order. -/
def identity (v : Value) : Value := sortKeys (wrap v)

theorem identity_object (fields : List (String × Value)) :
    identity (.object fields) = .object ((fields.map (fun p => (p.1, identity p.2))).insertionSort before) := by
  rw [identity, wrap, sortKeys, sortKeysFields_eq, wrapFields_eq, List.map_map]
  rfl

theorem reading_object (fields : List (String × Value)) :
    reading (.object fields) = .map (fun k => (fields.lookup k).map reading) := by
  rw [reading, readingFields_eq]
  congr 1
  funext k
  exact lookup_map reading fields k

/-- Two objects have the same identity exactly if each key leads to the same identity. -/
theorem identity_object_iff {f g : List (String × Value)} (hf : (keys f).Nodup) (hg : (keys g).Nodup) :
    identity (.object f) = identity (.object g) ↔ ∀ k, (f.lookup k).map identity = (g.lookup k).map identity := by
  rw [identity_object, identity_object, Value.object.injEq, sorted_eq_iff ((keys_map identity f).symm ▸ hf)
    ((keys_map identity g).symm ▸ hg)]
  simp only [lookup_map]

theorem reading_object_iff {f g : List (String × Value)} :
    reading (.object f) = reading (.object g) ↔ ∀ k, (f.lookup k).map reading = (g.lookup k).map reading := by
  rw [reading_object, reading_object, Reading.map.injEq, funext_iff]

@[simp] theorem identity_null : identity .null = .null := rfl

@[simp] theorem identity_bool (b : Bool) : identity (.bool b) = .bool b := rfl

@[simp] theorem identity_text (s : String) : identity (.text s) = .text s := rfl

@[simp] theorem identity_nonFinite : identity (.number .nonFinite) = .number .nonFinite := rfl

@[simp] theorem identity_finite (d : Decimal) :
    identity (.number (.finite d)) = .object [("number", .text (rendered d))] := rfl

@[simp] theorem identity_list (vs : List Value) : identity (.list vs) = .list (sortKeysAll (wrapAll vs)) := rfl

theorem text_of_identity {v : Value} {s : String} (h : identity v = .text s) : v = .text s := by
  cases v with
  | text t => exact h
  | number n => cases n <;> cases h
  | object fields =>
      rw [identity_object] at h
      cases h
  | null | bool _ | list _ => cases h

/-- Only an object that looks like a wrapped number could be taken for one. -/
theorem identity_number_ne {d : Decimal} {fields : List (String × Value)} (h : ∀ s, fields ≠ [("number", .text s)]) :
    identity (.number (.finite d)) ≠ identity (.object fields) := by
  intro he
  rw [identity_finite, identity_object, Value.object.injEq] at he
  have hperm := List.perm_insertionSort before (fields.map (fun p => (p.1, identity p.2)))
  rw [← he, List.singleton_perm] at hperm
  obtain ⟨⟨k, v⟩, rfl, hp⟩ := List.map_eq_singleton_iff.mp hperm.symm
  rw [Prod.mk.injEq] at hp
  obtain ⟨rfl, hv⟩ := hp
  have htext : v = .text (rendered d) := text_of_identity hv
  exact h _ (by rw [htext])

/-- Optional values are related as their contents are. -/
theorem map_eq_map_iff {β γ δ : Type} {φ : β → γ} {ψ : β → δ} {x y : Option β}
    (h : ∀ v ∈ x, ∀ w ∈ y, φ v = φ w ↔ ψ v = ψ w) : x.map φ = y.map φ ↔ x.map ψ = y.map ψ := by
  cases x with
  | none => cases y <;> simp
  | some v =>
      cases y with
      | none => simp
      | some w => simpa using h v rfl w rfl

theorem plain_lookup {fields : List (String × Value)} (h : PlainFields fields) (hk : (keys fields).Nodup) {k : String}
    {v : Value} (hv : fields.lookup k = some v) : Plain v :=
  plainFields_iff.mp h (k, v) ((mem_iff_lookup hk v).mpr hv)

/-- An object is neither the same as nor says the same as a value of another kind. -/
theorem object_apart {v : Value} {fields : List (String × Value)} (hv : ∀ f, v ≠ .object f)
    (hf : ∀ s, fields ≠ [("number", .text s)]) : ¬identity v = identity (.object fields) ∧
      ¬reading v = reading (.object fields) := by
  constructor
  · cases v with
    | object f => exact absurd rfl (hv f)
    | number x =>
        cases x with
        | finite d => exact identity_number_ne hf
        | nonFinite => simp [identity_object]
    | null | bool _ | text _ | list _ => simp [identity_object]
  · cases v with
    | object f => exact absurd rfl (hv f)
    | number x => cases x <;> simp [reading]
    | null | bool _ | text _ | list _ => simp [reading]

theorem object_apart_iff {v : Value} {fields : List (String × Value)} (hv : ∀ f, v ≠ .object f)
    (hf : Plain (.object fields)) : identity v = identity (.object fields) ↔ reading v = reading (.object fields) :=
  iff_of_false (object_apart hv hf.2.1).1 (object_apart hv hf.2.1).2

mutual

/-- Values have the same identity exactly if they say the same. -/
theorem identity_iff : ∀ v w : Value, Plain v → Plain w → (identity v = identity w ↔ reading v = reading w)
  | .null, w, _, hw => by
      cases w with
      | object f => exact object_apart_iff nofun hw
      | number x => cases x <;> simp [reading]
      | null | bool _ | text _ | list _ => simp [reading]
  | .bool b, w, _, hw => by
      cases w with
      | object f => exact object_apart_iff nofun hw
      | number x => cases x <;> simp [reading]
      | null | bool _ | text _ | list _ => simp [reading]
  | .text s, w, _, hw => by
      cases w with
      | object f => exact object_apart_iff nofun hw
      | number x => cases x <;> simp [reading]
      | null | bool _ | text _ | list _ => simp [reading]
  | .number .nonFinite, w, _, hw => by
      cases w with
      | object f => exact object_apart_iff nofun hw
      | number x => cases x <;> simp [reading]
      | null | bool _ | text _ | list _ => simp [reading]
  | .number (.finite d), w, _, hw => by
      cases w with
      | object f => exact object_apart_iff nofun hw
      | number x => cases x <;> simp [reading, Decimal.rendered_eq_iff]
      | null | bool _ | text _ | list _ => simp [reading]
  | .list vs, w, hv, hw => by
      cases w with
      | object f => exact object_apart_iff nofun hw
      | number x => cases x <;> simp [reading]
      | list ws => simpa [reading] using identities_iff vs ws hv hw
      | null | bool _ | text _ => simp [reading]
  | .object f, w, hv, hw => by
      have hother : (∀ g, w ≠ .object g) → (identity (.object f) = identity w ↔ reading (.object f) = reading w) := by
        intro h
        rw [eq_comm, object_apart_iff h hv, eq_comm]
      cases w with
      | object g =>
          have hmembers := members_iff f hv.2.2
          rw [identity_object_iff hv.1 hw.1, reading_object_iff]
          refine forall_congr' (fun k => map_eq_map_iff (fun v hkv w hkw => ?_))
          exact hmembers (k, v) ((mem_iff_lookup hv.1 v).mpr hkv) w (plain_lookup hw.2.2 hw.1 hkw)
      | null | bool _ | text _ | list _ | number _ => exact hother nofun

theorem identities_iff : ∀ vs ws : List Value, PlainAll vs → PlainAll ws →
    (sortKeysAll (wrapAll vs) = sortKeysAll (wrapAll ws) ↔ readings vs = readings ws)
  | [], [], _, _ => by simp [readings]
  | [], w :: ws, _, _ => by simp [wrapAll, sortKeysAll, readings]
  | v :: vs, [], _, _ => by simp [wrapAll, sortKeysAll, readings]
  | v :: vs, w :: ws, hv, hw => by
      have hhead : sortKeys (wrap v) = sortKeys (wrap w) ↔ reading v = reading w := identity_iff v w hv.1 hw.1
      have htail := identities_iff vs ws hv.2 hw.2
      simp [wrapAll, sortKeysAll, readings, hhead, htail]

theorem members_iff : ∀ fields : List (String × Value), PlainFields fields → ∀ p ∈ fields, ∀ w, Plain w →
    (identity p.2 = identity w ↔ reading p.2 = reading w)
  | [], _, p, hp, _, _ => absurd hp List.not_mem_nil
  | (k, v) :: fields, hf, p, hp, w, hw => by
      rcases List.mem_cons.mp hp with rfl | hp
      · exact identity_iff v w hf.1 hw
      · exact members_iff fields hf.2 p hp w hw

end

mutual

/-- A value without numbers, as wrapping leaves it. -/
def NumberFree : Value → Prop
  | .number _ => False
  | .list vs => NumberFreeAll vs
  | .object fields => NumberFreeFields fields
  | _ => True

def NumberFreeAll : List Value → Prop
  | [] => True
  | v :: vs => NumberFree v ∧ NumberFreeAll vs

def NumberFreeFields : List (String × Value) → Prop
  | [] => True
  | (_, v) :: fields => NumberFree v ∧ NumberFreeFields fields

end

theorem numberFreeFields_iff {fields : List (String × Value)} :
    NumberFreeFields fields ↔ ∀ p ∈ fields, NumberFree p.2 := by
  induction fields with
  | nil => simp [NumberFreeFields]
  | cons p fields ih => rw [NumberFreeFields, ih, List.forall_mem_cons]

mutual

theorem reread_numberFree : ∀ v : Value, NumberFree v → reread v = v
  | .null, _ | .bool _, _ | .text _, _ => by simp [reread]
  | .list vs, h => by rw [reread, rereadAll_numberFree vs h]
  | .object fields, h => by rw [reread, rereadFields_numberFree fields h]

theorem rereadAll_numberFree : ∀ vs : List Value, NumberFreeAll vs → rereadAll vs = vs
  | [], _ => rfl
  | v :: vs, h => by rw [rereadAll, reread_numberFree v h.1, rereadAll_numberFree vs h.2]

theorem rereadFields_numberFree : ∀ fields : List (String × Value), NumberFreeFields fields → rereadFields fields = fields
  | [], _ => rfl
  | (k, v) :: fields, h => by rw [rereadFields, reread_numberFree v h.1, rereadFields_numberFree fields h.2]

end

mutual

theorem allowed_numberFree : ∀ v : Value, NumberFree v → allowed v = .ok ()
  | .null, _ | .bool _, _ | .text _, _ => by simp [allowed]
  | .list vs, h => by rw [allowed, allowedAll_numberFree vs h]
  | .object fields, h => by rw [allowed, allowedFields_numberFree fields h]

theorem allowedAll_numberFree : ∀ vs : List Value, NumberFreeAll vs → allowedAll vs = .ok ()
  | [], _ => rfl
  | v :: vs, h => by
      rw [allowedAll, allowed_numberFree v h.1]
      exact allowedAll_numberFree vs h.2

theorem allowedFields_numberFree : ∀ fields : List (String × Value), NumberFreeFields fields → allowedFields fields = .ok ()
  | [], _ => rfl
  | (k, v) :: fields, h => by
      rw [allowedFields, allowed_numberFree v h.1]
      exact allowedFields_numberFree fields h.2

end

mutual

theorem numberFree_sortKeys : ∀ v : Value, NumberFree v → NumberFree (sortKeys v)
  | .null, _ | .bool _, _ | .text _, _ => by simp [sortKeys, NumberFree]
  | .list vs, h => numberFree_sortKeysAll vs h
  | .object fields, h => by
      rw [sortKeys, NumberFree, numberFreeFields_iff]
      intro p hp
      exact numberFreeFields_iff.mp (numberFree_sortKeysFields fields h) p ((List.mem_insertionSort before).mp hp)

theorem numberFree_sortKeysAll : ∀ vs : List Value, NumberFreeAll vs → NumberFreeAll (sortKeysAll vs)
  | [], _ => trivial
  | v :: vs, h => ⟨numberFree_sortKeys v h.1, numberFree_sortKeysAll vs h.2⟩

theorem numberFree_sortKeysFields : ∀ fields : List (String × Value), NumberFreeFields fields →
    NumberFreeFields (sortKeysFields fields)
  | [], _ => trivial
  | (_, v) :: fields, h => ⟨numberFree_sortKeys v h.1, numberFree_sortKeysFields fields h.2⟩

end

theorem dumps_of_allowed {v : Value} (h : allowed v = .ok ()) : dumps v = .ok (String.ofList (compact (sortKeys v))) :=
  Checks.bind_ok.mpr ⟨(), h, rfl⟩

/-- Without numbers every value has a text, from which its sorted form can be read. -/
theorem dumps_numberFree {v : Value} (h : NumberFree v) :
    ∃ s, dumps v = .ok s ∧ loads s = .ok (sortKeys v) := by
  have hd := dumps_of_allowed (allowed_numberFree v h)
  refine ⟨_, hd, ?_⟩
  rw [loads_dumps hd, reread_numberFree _ (numberFree_sortKeys v h)]

/-- The parameters of a request are an object in any case, whatever they look like. -/
theorem parameters_iff {f g : List (String × Value)} (hf : (keys f).Nodup) (hg : (keys g).Nodup) (hpf : PlainFields f)
    (hpg : PlainFields g) : identity (.object f) = identity (.object g) ↔ reading (.object f) = reading (.object g) := by
  rw [identity_object_iff hf hg, reading_object_iff]
  refine forall_congr' (fun k => map_eq_map_iff (fun v hv w hw => ?_))
  exact identity_iff v w (plain_lookup hpf hf hv) (plain_lookup hpg hg hw)

theorem allowedFields_iff {f : List (String × Value)} : allowedFields f = .ok () ↔ ∀ p ∈ f, allowed p.2 = .ok () := by
  induction f with
  | nil => simp [allowedFields]
  | cons p f ih =>
      rw [allowedFields, List.forall_mem_cons, ← ih]
      exact Checks.bind_ok.trans ⟨fun ⟨_, hp, hf⟩ => ⟨hp, hf⟩, fun ⟨hp, hf⟩ => ⟨(), hp, hf⟩⟩

/-- The record that is written for a request. -/
def request (env : String) (account : Account) (kind : String) (params : Value) : Value :=
  .object [("env", .text env), ("account", .text (toString account)), ("op_type", .text kind), ("params", params)]

theorem sortKeys_request (env : String) (a : Account) (kind : String) (params : Value) :
    sortKeys (request env a kind params) = .object [("account", .text (toString a)), ("env", .text env),
      ("op_type", .text kind), ("params", sortKeys params)] := by
  have h₁ : ¬"env" ≤ "account" := by decide
  have h₂ : "account" ≤ "op_type" := by decide
  have h₃ : "op_type" ≤ "params" := by decide
  have h₄ : "env" ≤ "op_type" := by decide
  simp [request, sortKeys, sortKeysFields, h₁, h₂, h₃, h₄]

end Json

end MoomooMcp
