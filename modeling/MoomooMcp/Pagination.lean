import MoomooMcp.Machine
import MoomooMcp.QuerySnapshots

namespace MoomooMcp

namespace QuerySnapshots

open Intent Json ClientAuthorization OrderedDict

variable {c : Cache} {key : String} {s : Snapshot} {now : ℚ}

/-- The bytes of all the snapshots of a cache. -/
def total (d : OrderedDict String Snapshot) : ℤ := (d.rows.map (fun r => (r.2.size : ℤ))).sum

theorem total_erase {d : OrderedDict String Snapshot} (h : d.get key = some s) : total (d.erase key) = total d - s.size := by
  have hperm := (erase_perm h).map (fun r : String × Snapshot => (r.2.size : ℤ))
  have hsum : total d = s.size + total (d.erase key) := hperm.sum_eq
  omega

theorem erase_length {d : OrderedDict String Snapshot} (h : d.get key = some s) :
    d.rows.length = (d.erase key).rows.length + 1 :=
  (erase_perm h).length_eq

theorem total_set {d : OrderedDict String Snapshot} (h : d.get key = none) (s : Snapshot) :
    total (d.set key s) = total d + s.size := by
  rw [total, set_rows h, List.map_append, List.sum_append, List.map_singleton, List.sum_singleton]
  rfl

/-- The counter is that of the snapshots that are kept, and neither is too large. -/
structure Accounted (c : Cache) : Prop where
  counter : c.bytes = total c.snapshots
  bytes : c.bytes ≤ maxCacheBytes
  few : c.snapshots.rows.length ≤ maxSnapshots

/-- Nothing is kept that was not kept before. -/
def Shrinks (c c' : Cache) : Prop := ∀ key s, c'.snapshots.get key = some s → c.snapshots.get key = some s

theorem accounted_empty : Accounted Cache.empty := ⟨rfl, by decide, by decide⟩

theorem remove_shrinks : Shrinks c (c.remove key) := by
  intro key' s' h
  unfold Cache.remove at h
  split at h
  · rw [get_erase] at h
    split at h
    · cases h
    · exact h
  · exact h

theorem Accounted.remove (h : Accounted c) : Accounted (c.remove key) := by
  unfold Cache.remove
  split
  · next s hs =>
      have hlength := erase_length hs
      have hbytes := h.bytes
      have hfew := h.few
      refine ⟨?_, ?_, ?_⟩
      · rw [total_erase hs, h.counter]
      · dsimp only
        omega
      · dsimp only
        omega
  · exact h

theorem expire_keeps {P : Cache → Prop} (hremove : ∀ c key, P c → P (c.remove key)) (h : P c) : P (c.expire now) := by
  have hfold : ∀ (rows : List (String × Snapshot)) (c : Cache), P c →
      P (rows.foldl (fun c r => if r.2.expires ≤ now then c.remove r.1 else c) c) := by
    intro rows
    induction rows with
    | nil => exact fun _ h => h
    | cons r rows ih =>
        intro c h
        rw [List.foldl_cons]
        apply ih
        split
        · exact hremove c r.1 h
        · exact h
  exact hfold _ c h

theorem makeRoom_keeps {P : Cache → Prop} (hremove : ∀ c key, P c → P (c.remove key)) {size : ℕ} :
    ∀ n c, P c → P (Cache.makeRoom size n c)
  | 0, _, h => h
  | n + 1, c, h => by
      rw [Cache.makeRoom]
      split
      · exact h
      · split
        · exact makeRoom_keeps hremove n _ (hremove c _ h)
        · exact h

theorem shrinks_remove (c₀ : Cache) : ∀ c key, Shrinks c₀ c → Shrinks c₀ (c.remove key) :=
  fun _ _ h key' s' hs => h key' s' (remove_shrinks key' s' hs)

theorem accounted_remove : ∀ c key, Accounted c → Accounted (c.remove key) := fun _ _ h => h.remove

theorem expire_shrinks : Shrinks c (c.expire now) := expire_keeps (shrinks_remove c) (fun _ _ h => h)

/-- A snapshot that is small enough has room once the loop is left. -/
theorem makeRoom_fits {size : ℕ} (hsize : size ≤ maxCacheBytes) :
    ∀ n (c : Cache), Accounted c → c.snapshots.rows.length ≤ n → ¬ (Cache.makeRoom size n c).full size := by
  have hempty : ∀ c : Cache, Accounted c → c.snapshots.rows = [] → ¬ c.full size := by
    rintro c h hrows (hfew | hbytes)
    · rw [hrows] at hfew
      exact absurd hfew (by decide)
    · rw [h.counter, total, hrows, List.map_nil, List.sum_nil] at hbytes
      omega
  intro n
  induction n with
  | zero => exact fun c h hn => hempty c h (List.length_eq_zero_iff.mp (Nat.le_zero.mp hn))
  | succ n ih =>
      intro c h hn
      rw [Cache.makeRoom]
      split
      · next hrows => exact hempty c h hrows
      · next r rows hrows =>
          split
          · apply ih _ h.remove
            have hr : c.snapshots.get r.1 = some r.2 := by
              rw [get_eq_some, hrows]
              exact List.mem_cons_self
            have hlength := erase_length hr
            rw [Cache.remove, hr]
            dsimp only
            omega
          · next hfull => exact hfull

theorem Accounted.store (h : Accounted c) (hroom : ¬ c.full s.size) (hkey : c.snapshots.get key = none) :
    Accounted (c.store key s) := by
  have hroom' := not_or.mp hroom
  refine ⟨?_, ?_, ?_⟩
  · rw [Cache.store, total_set hkey, h.counter]
  · exact not_lt.mp hroom'.2
  · rw [Cache.store, set_rows hkey, List.length_append, List.length_singleton]
    exact not_le.mp hroom'.1

section Create

variable (grants : Grants) (limit : ℕ)

/-- What a creation leaves of the cache: it keeps the new snapshot where it has more pages. -/
theorem create_cache (now : ℚ) (h : Accounted c) (hsize : s.size ≤ maxCacheBytes) (hkey : c.snapshots.get key = none) :
    Accounted (create c grants key now limit s).2 ∧
      ∀ key' s', (create c grants key now limit s).2.snapshots.get key' = some s' →
        c.snapshots.get key' = some s' ∨ (key' = key ∧ s' = s) := by
  unfold create
  split
  · exact ⟨h, fun _ _ hs => .inl hs⟩
  · have hshrinks : Shrinks c ((c.expire now).makeRoom s.size (c.expire now).snapshots.rows.length) :=
      makeRoom_keeps (shrinks_remove c) _ _ expire_shrinks
    have hexpired : Accounted (c.expire now) := expire_keeps accounted_remove h
    have hroom := makeRoom_fits hsize _ _ hexpired le_rfl
    have hnone : ((c.expire now).makeRoom s.size (c.expire now).snapshots.rows.length).snapshots.get key = none := by
      rw [Option.eq_none_iff_forall_ne_some]
      intro s' hs
      rw [hshrinks key s' hs] at hkey
      cases hkey
    refine ⟨(makeRoom_keeps accounted_remove _ _ hexpired).store hroom hnone, fun key' s' hs => ?_⟩
    dsimp only [Cache.store] at hs
    rw [get_set] at hs
    split at hs
    · next hk => exact .inr ⟨hk, (Option.some.inj hs).symm⟩
    · exact .inl (hshrinks key' s' hs)

theorem create_result : (create c grants key now limit s).1 = page grants s key 0 limit := by
  unfold create
  split <;> rfl

end Create

end QuerySnapshots

end MoomooMcp
