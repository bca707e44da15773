import Mathlib.Data.List.Perm.Subperm
import MoomooMcp.Table

namespace MoomooMcp

/-- A dictionary that keeps its items in an order, the oldest first. -/
abbrev OrderedDict (κ β : Type) := Table (Prod.fst : κ × β → κ)

namespace OrderedDict

variable {κ β : Type}

/-- The items for which a test holds. -/
def restrict (d : OrderedDict κ β) (p : κ → β → Bool) : OrderedDict κ β where
  rows := d.rows.filter (fun r => p r.1 r.2)
  unique := d.unique.sublist (List.filter_sublist.map Prod.fst)

/-- Drop the oldest items until at most `n` are left. -/
def trim (d : OrderedDict κ β) (n : ℕ) : OrderedDict κ β where
  rows := d.rows.drop (d.rows.length - n)
  unique := d.unique.sublist ((List.drop_sublist _ _).map Prod.fst)

theorem trim_length (d : OrderedDict κ β) (n : ℕ) : (d.trim n).rows.length ≤ n := by
  rw [trim, List.length_drop]
  omega

variable [DecidableEq κ]

def get (d : OrderedDict κ β) (k : κ) : Option β := (d.lookup k).map Prod.snd

theorem get_eq_some {d : OrderedDict κ β} {k : κ} {v : β} : d.get k = some v ↔ (k, v) ∈ d.rows := by
  unfold get
  rw [Option.map_eq_some_iff]
  constructor
  · rintro ⟨r, hr, rfl⟩
    have hk : r.1 = k := Table.lookup_key hr
    subst k
    exact Table.mem_of_lookup hr
  · intro h
    exact ⟨(k, v), Table.lookup_of_mem h, rfl⟩

def empty : OrderedDict κ β := Table.empty

@[simp] theorem get_empty (k : κ) : (empty : OrderedDict κ β).get k = none := rfl

theorem get_restrict (d : OrderedDict κ β) (p : κ → β → Bool) (k : κ) :
    (d.restrict p).get k = (d.get k).filter (p k) := by
  apply Option.ext
  intro v
  rw [get_eq_some, Option.filter_eq_some_iff, get_eq_some]
  exact List.mem_filter

theorem get_of_trim {d : OrderedDict κ β} {n : ℕ} {k : κ} {v : β} (h : (d.trim n).get k = some v) :
    d.get k = some v := by
  rw [get_eq_some] at h ⊢
  exact List.mem_of_mem_drop h

/-- A dictionary with no more keys has no more items. -/
theorem length_le_of_get {d e : OrderedDict κ β} (h : ∀ k v, e.get k = some v → ∃ w, d.get k = some w) :
    e.rows.length ≤ d.rows.length := by
  have hsub : e.rows.map Prod.fst ⊆ d.rows.map Prod.fst := by
    intro k hk
    obtain ⟨r, hr, rfl⟩ := List.mem_map.mp hk
    obtain ⟨w, hw⟩ := h r.1 r.2 (get_eq_some.mpr hr)
    exact List.mem_map.mpr ⟨(r.1, w), get_eq_some.mp hw, rfl⟩
  have hle := (List.Nodup.subperm e.unique hsub).length_le
  rwa [List.length_map, List.length_map] at hle

/-- `del d[k]`. -/
def erase (d : OrderedDict κ β) (k : κ) : OrderedDict κ β := d.restrict (fun k' _ => k' ≠ k)

theorem get_erase (d : OrderedDict κ β) (k k' : κ) : (d.erase k).get k' = if k' = k then none else d.get k' := by
  rw [erase, get_restrict]
  by_cases h : k' = k <;> cases d.get k' <;> simp [h]

theorem erase_perm {d : OrderedDict κ β} {k : κ} {v : β} (h : d.get k = some v) :
    d.rows.Perm ((k, v) :: (d.erase k).rows) := by
  have hne : ∀ w, (k, w) ∉ (d.erase k).rows := by
    intro w hw
    have hget := get_eq_some.mpr hw
    rw [get_erase, if_pos rfl] at hget
    cases hget
  refine (List.perm_ext_iff_of_nodup (List.Nodup.of_map _ d.unique) ?_).mpr (fun p => ?_)
  · exact List.nodup_cons.mpr ⟨hne v, List.Nodup.of_map _ (d.erase k).unique⟩
  · obtain ⟨k', w⟩ := p
    rw [List.mem_cons, ← get_eq_some, ← get_eq_some, get_erase]
    by_cases hk : k' = k
    · subst hk
      rw [h, if_pos rfl]
      constructor
      · intro hv
        exact .inl (by rw [Option.some.inj hv])
      · rintro (hv | hv)
        · rw [(Prod.mk.inj hv).2]
        · cases hv
    · rw [if_neg hk]
      exact ⟨.inr, fun hv => hv.resolve_left (fun he => hk (Prod.mk.inj he).1)⟩

/-- A new item behind all others. -/
def append (d : OrderedDict κ β) (k : κ) (v : β) (h : d.get k = none) : OrderedDict κ β :=
  d.insert (k, v) (by simpa [get] using h)

theorem get_append (d : OrderedDict κ β) (k : κ) (v : β) (h : d.get k = none) (k' : κ) :
    (d.append k v h).get k' = if k' = k then some v else d.get k' := by
  unfold get append
  rw [Table.lookup_insert]
  split <;> rfl

/-- `d[k] = v`, which leaves a key where it stands. -/
def set (d : OrderedDict κ β) (k : κ) (v : β) : OrderedDict κ β :=
  if h : d.get k = none then d.append k v h else d.modify k (fun r => (r.1, v)) (fun _ => rfl)

theorem set_rows {d : OrderedDict κ β} {k : κ} (h : d.get k = none) (v : β) : (d.set k v).rows = d.rows ++ [(k, v)] := by
  unfold set
  rw [dif_pos h]
  rfl

theorem get_set (d : OrderedDict κ β) (k : κ) (v : β) (k' : κ) :
    (d.set k v).get k' = if k' = k then some v else d.get k' := by
  unfold set
  split
  · apply get_append
  · next h =>
      unfold get
      rw [Table.lookup_modify]
      split
      · next hk =>
          subst k'
          obtain ⟨w, hw⟩ := Option.ne_none_iff_exists'.mp h
          obtain ⟨r, hr, -⟩ := Option.map_eq_some_iff.mp hw
          rw [hr]
          rfl
      · rfl

/-- `d[k] = v` and `d.move_to_end(k)`. -/
def setLast (d : OrderedDict κ β) (k : κ) (v : β) : OrderedDict κ β :=
  (d.erase k).append k v (by rw [get_erase, if_pos rfl])

theorem get_setLast (d : OrderedDict κ β) (k : κ) (v : β) (k' : κ) :
    (d.setLast k v).get k' = if k' = k then some v else d.get k' := by
  rw [setLast, get_append, get_erase]
  by_cases h : k' = k <;> simp [h]

/-- `d.move_to_end(k)`. -/
def moveToEnd (d : OrderedDict κ β) (k : κ) : OrderedDict κ β :=
  match d.get k with
  | some v => d.setLast k v
  | none => d

theorem get_moveToEnd (d : OrderedDict κ β) (k k' : κ) : (d.moveToEnd k).get k' = d.get k' := by
  unfold moveToEnd
  split
  · next v hv =>
      rw [get_setLast]
      split
      · next h => rw [h, hv]
      · rfl
  · rfl

theorem get_foldl_moveToEnd (ks : List κ) (d : OrderedDict κ β) (k : κ) : (ks.foldl moveToEnd d).get k = d.get k := by
  induction ks generalizing d with
  | nil => rfl
  | cons k' ks ih => rw [List.foldl_cons, ih, get_moveToEnd]

/-- The value that a list of assignments leaves under a key. -/
def lastOf (k : κ) : List (κ × β) → Option β
  | [] => none
  | p :: ps => (lastOf k ps).or (if p.1 = k then some p.2 else none)

theorem lastOf_append (k : κ) (ps qs : List (κ × β)) : lastOf k (ps ++ qs) = (lastOf k qs).or (lastOf k ps) := by
  induction ps with
  | nil => exact Option.or_none.symm
  | cons p ps ih => rw [List.cons_append, lastOf, ih, lastOf, Option.or_assoc]

theorem mem_of_lastOf {k : κ} {v : β} {ps : List (κ × β)} (h : lastOf k ps = some v) : (k, v) ∈ ps := by
  induction ps with
  | nil => cases h
  | cons p ps ih =>
      rw [lastOf, Option.or_eq_some_iff] at h
      rcases h with h | ⟨-, h⟩
      · exact List.mem_cons_of_mem p (ih h)
      · split at h
        · next hk =>
            cases h
            subst k
            exact List.mem_cons_self
        · cases h

theorem lastOf_isSome {k : κ} {ps : List (κ × β)} : (lastOf k ps).isSome ↔ ∃ v, (k, v) ∈ ps := by
  constructor
  · intro h
    obtain ⟨v, hv⟩ := Option.isSome_iff_exists.mp h
    exact ⟨v, mem_of_lastOf hv⟩
  · rintro ⟨v, hv⟩
    induction ps with
    | nil => cases hv
    | cons p ps ih =>
        rw [lastOf, Option.isSome_or, Bool.or_eq_true]
        rcases List.mem_cons.mp hv with rfl | hv
        · exact .inr (by rw [if_pos rfl]; rfl)
        · exact .inl (ih hv)

theorem lastOf_eq_none {k : κ} {ps : List (κ × β)} (h : ∀ p ∈ ps, p.1 ≠ k) : lastOf k ps = none := by
  rw [← Option.not_isSome_iff_eq_none, lastOf_isSome]
  rintro ⟨v, hv⟩
  exact h (k, v) hv rfl

theorem lastOf_of_unique {d : OrderedDict κ β} (k : κ) : lastOf k d.rows = d.get k := by
  apply Option.ext
  intro v
  constructor
  · intro h
    exact get_eq_some.mpr (mem_of_lastOf h)
  · intro h
    have hmem := get_eq_some.mp h
    obtain ⟨w, hw⟩ := Option.isSome_iff_exists.mp (lastOf_isSome.mpr ⟨v, hmem⟩)
    have hwv : (k, w) = (k, v) := List.inj_on_of_nodup_map d.unique (mem_of_lastOf hw) hmem rfl
    rw [hw, (Prod.mk.inj hwv).2]

section Update

variable (put : OrderedDict κ β → κ → β → OrderedDict κ β)
  (hput : ∀ d k v k', (put d k v).get k' = if k' = k then some v else d.get k')

include hput

theorem get_foldl_put (ps : List (κ × β)) (d : OrderedDict κ β) (k : κ) :
    (ps.foldl (fun d p => put d p.1 p.2) d).get k = (lastOf k ps).or (d.get k) := by
  induction ps generalizing d with
  | nil => rfl
  | cons p ps ih =>
      rw [List.foldl_cons, ih, hput, lastOf, Option.or_assoc]
      by_cases h : p.1 = k
      · rw [if_pos h.symm, if_pos h]
        rfl
      · rw [if_neg (Ne.symm h), if_neg h]
        rfl

end Update

/-- One assignment after the other. -/
def setAll (d : OrderedDict κ β) (ps : List (κ × β)) : OrderedDict κ β := ps.foldl (fun d p => d.set p.1 p.2) d

/-- The same, each key at the end. -/
def setAllLast (d : OrderedDict κ β) (ps : List (κ × β)) : OrderedDict κ β := ps.foldl (fun d p => d.setLast p.1 p.2) d

theorem setAll_append (d : OrderedDict κ β) (ps qs : List (κ × β)) : d.setAll (ps ++ qs) = (d.setAll ps).setAll qs :=
  List.foldl_append

theorem get_setAll (d : OrderedDict κ β) (ps : List (κ × β)) (k : κ) :
    (d.setAll ps).get k = (lastOf k ps).or (d.get k) :=
  get_foldl_put set get_set ps d k

theorem get_setAllLast (d : OrderedDict κ β) (ps : List (κ × β)) (k : κ) :
    (d.setAllLast ps).get k = (lastOf k ps).or (d.get k) :=
  get_foldl_put setLast get_setLast ps d k

/-- `{k: f(k) for k in ks if f(k)}`. -/
def collect (ks : List κ) (f : κ → Option β) : OrderedDict κ β :=
  setAll empty (ks.filterMap (fun k => (f k).map (Prod.mk k)))

theorem get_collect (ks : List κ) (f : κ → Option β) (k : κ) :
    (collect ks f).get k = if k ∈ ks then f k else none := by
  rw [collect, get_setAll, get_empty, Option.or_none]
  apply Option.ext
  intro v
  have hmem : ∀ w, (k, w) ∈ ks.filterMap (fun k => (f k).map (Prod.mk k)) ↔ k ∈ ks ∧ f k = some w := by
    intro w
    simp [List.mem_filterMap]
  constructor
  · intro h
    obtain ⟨hk, hv⟩ := (hmem v).mp (mem_of_lastOf h)
    rw [if_pos hk, hv]
  · intro h
    split at h
    · next hk =>
        obtain ⟨w, hw⟩ := Option.isSome_iff_exists.mp (lastOf_isSome.mpr ⟨v, (hmem v).mpr ⟨hk, h⟩⟩)
        have hfw := ((hmem w).mp (mem_of_lastOf hw)).2
        rw [hw, ← hfw, h]
    · cases h

end OrderedDict

end MoomooMcp
