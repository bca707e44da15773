import Mathlib.Data.List.Nodup

namespace MoomooMcp

/-- A list of rows in insertion order in which no two rows share their primary
key, so that a key identifies at most one row. -/
structure Table {κ ρ : Type} (key : ρ → κ) where
  rows : List ρ
  unique : (rows.map key).Nodup

namespace Table

variable {κ ρ : Type} {key : ρ → κ}

def empty : Table key := ⟨[], List.nodup_nil⟩

/-- The same table with its rows in another form, under the keys they had. -/
def map {ρ' : Type} {key' : ρ' → κ} (T : Table key) (f : ρ → ρ') (h : ∀ r, key' (f r) = key r) : Table key' where
  rows := T.rows.map f
  unique := by
    have he : (T.rows.map f).map key' = T.rows.map key := by
      rw [List.map_map]
      exact List.map_congr_left (fun r _ => h r)
    rw [he]
    exact T.unique

section Operations

variable [DecidableEq κ]

def lookup (T : Table key) (k : κ) : Option ρ := T.rows.find? (fun r => key r = k)

theorem lookup_key {T : Table key} {k : κ} {r : ρ} (h : T.lookup k = some r) : key r = k := by
  simpa using List.find?_some h

theorem mem_of_lookup {T : Table key} {k : κ} {r : ρ} (h : T.lookup k = some r) : r ∈ T.rows :=
  List.mem_of_find?_eq_some h

theorem lookup_eq_none {T : Table key} {k : κ} : T.lookup k = none ↔ ∀ r ∈ T.rows, key r ≠ k := by
  simp [lookup, List.find?_eq_none]

theorem lookup_of_mem {T : Table key} {r : ρ} (h : r ∈ T.rows) : T.lookup (key r) = some r := by
  cases hl : T.lookup (key r) with
  | none => exact absurd rfl (lookup_eq_none.mp hl r h)
  | some r' =>
      have hk := lookup_key hl
      rw [List.inj_on_of_nodup_map T.unique (mem_of_lookup hl) h hk]

theorem mem_iff_lookup {T : Table key} {r : ρ} : r ∈ T.rows ↔ T.lookup (key r) = some r :=
  ⟨lookup_of_mem, mem_of_lookup⟩

@[simp] theorem lookup_empty (k : κ) : (empty : Table key).lookup k = none := rfl

/-- Insertion of a row under a key that is not taken yet. -/
def insert (T : Table key) (r : ρ) (h : T.lookup (key r) = none) : Table key where
  rows := T.rows ++ [r]
  unique := by
    rw [List.map_append, List.map_singleton]
    refine T.unique.append (List.nodup_singleton _) ?_
    rw [List.disjoint_singleton]
    intro hm
    obtain ⟨r', hr', hk⟩ := List.mem_map.mp hm
    exact lookup_eq_none.mp h r' hr' hk

theorem lookup_insert (T : Table key) (r : ρ) (h : T.lookup (key r) = none) (k : κ) :
    (T.insert r h).lookup k = if k = key r then some r else T.lookup k := by
  by_cases hk : k = key r
  · subst k
    have hn : T.rows.find? (fun r' => key r' = key r) = none := h
    simp [lookup, insert, List.find?_append, hn]
  · simp [lookup, insert, List.find?_append, hk, Ne.symm hk]

/-- Update the row of one key; the update leaves the key itself alone. -/
def modify (T : Table key) (k : κ) (f : ρ → ρ) (h : ∀ r, key (f r) = key r) : Table key where
  rows := T.rows.map (fun r => if key r = k then f r else r)
  unique := by
    have he : (T.rows.map (fun r => if key r = k then f r else r)).map key = T.rows.map key := by
      rw [List.map_map]
      apply List.map_congr_left
      intro r _
      simp only [Function.comp_apply]
      split
      · exact h r
      · rfl
    rw [he]
    exact T.unique

theorem lookup_modify (T : Table key) (k : κ) (f : ρ → ρ) (h : ∀ r, key (f r) = key r) (k' : κ) :
    (T.modify k f h).lookup k' = if k' = k then (T.lookup k').map f else T.lookup k' := by
  obtain ⟨rows, hu⟩ := T
  simp only [lookup, modify]
  clear hu
  induction rows with
  | nil => simp
  | cons r rs ih =>
      have hkey : key (if key r = k then f r else r) = key r := by
        split
        · exact h r
        · rfl
      simp only [List.map_cons, List.find?_cons, hkey]
      by_cases hr : key r = k'
      · by_cases hk : k' = k <;> simp [hr, hk]
      · simp only [hr, decide_false, ih]

/-- Update every row, as an update statement without a key does. -/
def modifyAll (T : Table key) (f : ρ → ρ) (h : ∀ r, key (f r) = key r) : Table key where
  rows := T.rows.map f
  unique := by
    have he : (T.rows.map f).map key = T.rows.map key := by
      rw [List.map_map]
      exact List.map_congr_left (fun r _ => h r)
    rw [he]
    exact T.unique

theorem lookup_modifyAll (T : Table key) (f : ρ → ρ) (h : ∀ r, key (f r) = key r) (k : κ) :
    (T.modifyAll f h).lookup k = (T.lookup k).map f := by
  obtain ⟨rows, hu⟩ := T
  simp only [lookup, modifyAll]
  clear hu
  induction rows with
  | nil => simp
  | cons r rs ih =>
      simp only [List.map_cons, List.find?_cons, h]
      by_cases hr : key r = k <;> simp_all

theorem lookup_map {ρ' : Type} {key' : ρ' → κ} (T : Table key) (f : ρ → ρ') (h : ∀ r, key' (f r) = key r) (k : κ) :
    (T.map f h).lookup k = (T.lookup k).map f := by
  obtain ⟨rows, hu⟩ := T
  simp only [lookup, map]
  clear hu
  induction rows with
  | nil => rfl
  | cons r rs ih =>
      simp only [List.map_cons, List.find?_cons, h]
      by_cases hr : key r = k
      · simp [hr]
      · simp only [hr, decide_false, ih]

end Operations

end Table

end MoomooMcp
