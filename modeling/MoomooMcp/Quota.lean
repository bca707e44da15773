import Mathlib.Algebra.BigOperators.Group.Finset.Piecewise
import Mathlib.Algebra.Order.BigOperators.Group.Finset
import Mathlib.Tactic.Linarith
import MoomooMcp.RateLimit

namespace MoomooMcp.RateLimit

open RollingWindow InMemoryBucket LawfulBucket

variable {β : Type}

namespace Limiter

theorem pendingWeight_book {l : Limiter β} {weight : ℤ} (h : l.issued ∉ l.pending) :
    (l.book weight).pendingWeight = l.pendingWeight + weight := by
  have hothers : ∑ slot ∈ l.pending, Function.update l.remaining l.issued weight slot = l.pendingWeight := by
    refine Finset.sum_congr rfl (fun slot hslot => ?_)
    exact Function.update_of_ne (ne_of_mem_of_not_mem hslot h) _ _
  change ∑ slot ∈ insert l.issued l.pending, Function.update l.remaining l.issued weight slot = _
  rw [Finset.sum_insert h, Function.update_self, hothers, add_comm]

theorem pendingWeight_update {l : Limiter β} {slot : ℕ} (left : ℤ) (h : slot ∈ l.pending) :
    ∑ other ∈ l.pending, Function.update l.remaining slot left other = l.pendingWeight - l.remaining slot + left := by
  rw [Finset.sum_update_of_mem h]
  unfold pendingWeight
  rw [← Finset.sum_sdiff (Finset.singleton_subset_iff.mpr h), Finset.sum_singleton]
  ring

theorem pendingWeight_erase {l : Limiter β} {slot : ℕ} (h : slot ∈ l.pending) :
    ∑ other ∈ l.pending.erase slot, Function.update l.remaining slot 0 other = l.pendingWeight - l.remaining slot := by
  have hall := pendingWeight_update 0 h
  rw [← Finset.sum_erase_add _ _ h, Function.update_self] at hall
  linarith

theorem pendingWeight_release {l : Limiter β} {slot : ℕ} (h : slot ∈ l.pending) :
    (l.release slot).pendingWeight = l.pendingWeight - l.remaining slot := pendingWeight_erase h

theorem pendingWeight_spend {l : Limiter β} {slot : ℕ} (h : slot ∈ l.pending) :
    (l.spend slot).pendingWeight = l.pendingWeight - 1 := by
  change ∑ other ∈ (if l.remaining slot - 1 = 0 then _ else _), Function.update l.remaining slot _ other = _
  by_cases hlast : l.remaining slot - 1 = 0
  · rw [if_pos hlast, hlast, pendingWeight_erase h]
    omega
  · rw [if_neg hlast, pendingWeight_update _ h]
    ring

end Limiter

variable [InMemoryBucket β]

theorem millis_mono {a b : ℚ} (h : a ≤ b) : millis a ≤ millis b :=
  Int.floor_le_floor (mul_le_mul_of_nonneg_right h (by norm_num))

theorem widthMillis_nonneg {seconds : ℚ} (h : 0 ≤ seconds) : 0 ≤ widthMillis seconds :=
  Int.ceil_nonneg (mul_nonneg h (by norm_num))

/-- Milliseconds that lie more than the rounded up width apart are rounded down from
seconds that do. -/
theorem lt_sub_of_millis {seconds a b : ℚ} (h : widthMillis seconds < millis b - millis a) : seconds < b - a := by
  have hwidth : seconds * 1000 ≤ widthMillis seconds := Int.le_ceil _
  have hfirst : a * 1000 < millis a + 1 := Int.lt_floor_add_one _
  have hlast : (millis b : ℚ) ≤ b * 1000 := Int.floor_le _
  have hapart : (widthMillis seconds : ℚ) + 1 ≤ millis b - millis a := by exact_mod_cast h
  linarith

theorem millis_sub_le {seconds t now : ℚ} (h : now - t ≤ seconds) : millis now - millis t ≤ widthMillis seconds := by
  by_contra hfar
  exact absurd (lt_sub_of_millis (not_le.mp hfar)) (not_lt.mpr h)

theorem spread_seconds {n : ℕ} {seconds : ℚ} {starts : List ℚ}
    (h : Spread n (widthMillis seconds) (starts.map millis)) : Spread n seconds starts := by
  intro i a b ha hb
  apply lt_sub_of_millis
  apply h i
  · rw [List.getElem?_map, ha, Option.map_some]
  · rw [List.getElem?_map, hb, Option.map_some]

theorem within_millis_length (seconds now : ℚ) (starts : List ℚ) :
    (within seconds now starts).length ≤ (within (widthMillis seconds) (millis now) (starts.map millis)).length := by
  unfold within
  rw [List.filter_map, List.length_map]
  apply List.Sublist.length_le
  apply List.monotone_filter_right
  intro t ht
  exact decide_eq_true (millis_sub_le (of_decide_eq_true ht))

/-- A bucket that holds the part of a log which a rate still counts, and has kept the log to the rate. -/
structure Holds (r : Rate) (log : List ℤ) (now : ℤ) (b : β) : Prop where
  rate : rate b = r
  view : ∃ seen ≤ now, items b = within r.interval seen log
  sorted : log.Pairwise (· ≤ ·)
  past : ∀ t ∈ log, t ≤ now
  spread : Spread r.limit.toNat r.interval log

namespace Holds

variable {r : Rate} {log : List ℤ} {now now' : ℤ} {b b' : β}

theorem mono (h : Holds r log now b) (hnow : now ≤ now') : Holds r log now' b := by
  obtain ⟨seen, hseen, hitems⟩ := h.view
  exact ⟨h.rate, ⟨seen, hseen.trans hnow, hitems⟩, h.sorted, fun t ht => (h.past t ht).trans hnow, h.spread⟩

theorem items_sorted (h : Holds r log now b) : (items b).Pairwise (· ≤ ·) := by
  obtain ⟨seen, _, hitems⟩ := h.view
  rw [hitems]
  exact h.sorted.sublist List.filter_sublist

/-- What the rate still counts later is what it counts of the items. -/
theorem within_items (h : Holds r log now b) (hnow : now ≤ now') :
    within r.interval now' (items b) = within r.interval now' log := by
  obtain ⟨seen, hseen, hitems⟩ := h.view
  rw [hitems]
  exact within_within (hseen.trans hnow)

theorem within_length_le (h : Holds r log now b) (hnow : now ≤ now') :
    (within r.interval now' log).length ≤ (items b).length := by
  rw [← h.within_items hnow]
  exact RollingWindow.within_length_le

variable [LawfulBucket β]

theorem fresh (r : Rate) (now : ℤ) : Holds r [] now (InMemoryBucket.new r : β) where
  rate := rate_new r
  view := ⟨now, le_refl now, by rw [items_new, within_nil]⟩
  sorted := .nil
  past := by simp
  spread := spread_nil

theorem items_leak (h : Holds r log now b) : items (leak now b) = within r.interval now log := by
  rw [LawfulBucket.items_leak now b h.items_sorted, h.rate]
  exact h.within_items (le_refl now)

theorem leak (h : Holds r log now b) : Holds r log now (InMemoryBucket.leak now b) where
  rate := (rate_leak now b).trans h.rate
  view := ⟨now, le_refl now, h.items_leak⟩
  sorted := h.sorted
  past := h.past
  spread := h.spread

theorem put_isSome_iff (h : Holds r log now b) :
    (InMemoryBucket.put now b).isSome ↔ ((within r.interval now log).length : ℤ) < r.limit := by
  rw [LawfulBucket.put_isSome now b h.items_sorted, h.rate, h.within_items (le_refl now)]

/-- An accepted item goes on record, and the log keeps to the rate. -/
theorem put (h : Holds r log now b) (hwidth : 0 ≤ r.interval) (hitems : items b = within r.interval now log)
    (hput : InMemoryBucket.put now b = some b') : Holds r (log ++ [now]) now b' := by
  have hfew : ((within r.interval now log).length : ℤ) < r.limit := by
    rw [← h.put_isSome_iff, hput]
    rfl
  refine ⟨(rate_put hput).trans h.rate, ⟨now, le_refl now, ?_⟩, ?_, ?_, ?_⟩
  · rw [items_put hput, hitems, within_append, within_self hwidth]
  · rw [List.pairwise_append]
    refine ⟨h.sorted, List.pairwise_singleton _ _, fun t ht u hu => ?_⟩
    rw [List.mem_singleton.mp hu]
    exact h.past t ht
  · intro t ht
    rcases List.mem_append.mp ht with hold | hnew
    · exact h.past t hold
    · exact (List.mem_singleton.mp hnew).le
  · apply h.spread.snoc h.sorted
    omega

end Holds

namespace Limiter

/-- Nothing but a caller ahead in the queue keeps the weight from being reserved. -/
structure Free (weight : ℤ) (l : Limiter β) : Prop where
  positive : 1 ≤ weight
  paced : ∀ b, l.spacing = some b → weight = 1 ∧ l.pending = ∅ ∧ peek 0 b = none
  capacity : count l.bucket + l.pendingWeight + weight ≤ l.policy.calls

theorem checkSpacing_eq_none {weight : ℤ} {now : ℚ} {l : Limiter β} :
    l.checkSpacing weight now = none ↔ ∀ b, l.spacing = some b → weight = 1 ∧ l.pending = ∅ ∧ peek 0 b = none := by
  unfold checkSpacing
  cases hb : l.spacing with
  | none => simp
  | some b =>
      by_cases hweight : weight = 1 <;> by_cases hpending : l.pending = ∅ <;> simp [hweight, hpending]

/-- An attempt either reserves, and then the weight was free, or leaves the reservations alone. -/
theorem tryReserve_cases (weight : ℤ) (ticket : Option ℕ) (now : ℚ) (l : Limiter β) :
    ((∀ slot, (l.tryReserve weight ticket now).1 ≠ .reserved slot) ∧
      ((l.tryReserve weight ticket now).2 = l ∨ (l.tryReserve weight ticket now).2 = l.prune now)) ∨
    ((l.prune now).Free weight ∧ l.tryReserve weight ticket now = (.reserved l.issued, (l.prune now).book weight)) := by
  unfold tryReserve
  by_cases hweight : weight < 1 ∨ l.policy.calls < weight
  · rw [if_pos hweight]
    exact .inl ⟨nofun, .inl rfl⟩
  rw [if_neg hweight]
  by_cases hqueue : l.waiters ≠ [] ∧ l.waiters.head? ≠ ticket
  · have hqueue' : (l.prune now).waiters ≠ [] ∧ (l.prune now).waiters.head? ≠ ticket := hqueue
    dsimp only
    rw [if_pos hqueue']
    exact .inl ⟨nofun, .inr rfl⟩
  have hqueue' : ¬((l.prune now).waiters ≠ [] ∧ (l.prune now).waiters.head? ≠ ticket) := hqueue
  dsimp only
  rw [if_neg hqueue']
  cases hpaced : (l.prune now).checkSpacing weight now with
  | some attempt =>
      refine .inl ⟨fun slot => ?_, .inr rfl⟩
      rintro rfl
      revert hpaced
      unfold checkSpacing
      cases (l.prune now).spacing with
      | none => simp
      | some b => by_cases h : weight = 1 <;> by_cases h' : (l.prune now).pending = ∅ <;> simp [h, h']
  | none =>
      by_cases hfree : count (l.prune now).bucket + (l.prune now).pendingWeight + weight ≤ (l.prune now).policy.calls
      · dsimp only
        rw [if_pos hfree]
        exact .inr ⟨⟨by omega, checkSpacing_eq_none.mp hpaced, hfree⟩, rfl⟩
      · dsimp only
        rw [if_neg hfree]
        exact .inl ⟨nofun, .inr rfl⟩

end Limiter

/-- What holds of a limiter whose calls were started at the given times, at any later time. -/
structure Kept (policy : RateLimitPolicy) (starts : List ℚ) (clock : ℚ) (l : Limiter β) : Prop where
  fixed : l.policy = policy
  bucket : Holds policy.rate (starts.map millis) (millis clock) l.bucket
  paces : l.spacing.isSome ↔ policy.minIntervalSeconds ≠ 0
  spacing : ∀ b, l.spacing = some b → Holds policy.spacingRate (starts.map millis) (millis clock) b
  capacity : (items l.bucket).length + l.pendingWeight ≤ policy.calls
  positive : ∀ slot ∈ l.pending, 1 ≤ l.remaining slot
  spent : ∀ slot ∉ l.pending, l.remaining slot = 0
  issued : ∀ slot ∈ l.pending, slot < l.issued
  paced : ∀ b, l.spacing = some b → ∀ slot ∈ l.pending, l.pending = {slot} ∧ l.remaining slot = 1 ∧ items b = []

namespace Kept

variable {policy : RateLimitPolicy} {starts : List ℚ} {clock now : ℚ} {l l' : Limiter β} {slot : ℕ}

theorem tick (h : Kept policy starts clock l) (hnow : clock ≤ now) : Kept policy starts now l :=
  { h with
    bucket := h.bucket.mono (millis_mono hnow)
    spacing := fun b hb => (h.spacing b hb).mono (millis_mono hnow) }

theorem waiters (h : Kept policy starts clock l) (tickets : List ℕ) :
    Kept policy starts clock { l with waiters := tickets } := { h with }

theorem mem_iff (h : Kept policy starts clock l) : slot ∈ l.pending ↔ l.remaining slot ≠ 0 := by
  refine ⟨fun hslot => ?_, fun hleft => ?_⟩
  · have := h.positive slot hslot
    omega
  · by_contra hslot
    exact hleft (h.spent slot hslot)

theorem issued_notMem (h : Kept policy starts clock l) : l.issued ∉ l.pending :=
  fun hslot => (h.issued l.issued hslot).false

theorem remaining_le (h : Kept policy starts clock l) (hslot : slot ∈ l.pending) :
    l.remaining slot ≤ l.pendingWeight :=
  Finset.single_le_sum (fun other hother => (h.positive other hother).trans' zero_le_one) hslot

theorem release_spent (h : Kept policy starts clock l) (hslot : slot ∉ l.pending) : l.release slot = l := by
  unfold Limiter.release
  rw [Finset.erase_eq_of_notMem hslot, ← h.spent slot hslot, Function.update_eq_self]

theorem release (h : Kept policy starts clock l) (slot : ℕ) : Kept policy starts clock (l.release slot) := by
  by_cases hslot : slot ∈ l.pending
  · refine { h with capacity := ?_, positive := ?_, spent := ?_, issued := ?_, paced := ?_ }
    · have hpositive := h.positive slot hslot
      have hcapacity := h.capacity
      rw [Limiter.pendingWeight_release hslot]
      change ((items l.bucket).length : ℤ) + _ ≤ _
      omega
    · intro other hother
      obtain ⟨hne, hmem⟩ := Finset.mem_erase.mp hother
      exact (h.positive other hmem).trans_eq (Function.update_of_ne hne _ _).symm
    · intro other hother
      by_cases hne : other = slot
      · rw [hne]
        exact Function.update_self _ _ _
      · have hmem : other ∉ l.pending := fun hmem => hother (Finset.mem_erase.mpr ⟨hne, hmem⟩)
        exact (Function.update_of_ne hne _ _).trans (h.spent other hmem)
    · exact fun other hother => h.issued other (Finset.mem_of_mem_erase hother)
    · intro b hb other hother
      obtain ⟨hne, hmem⟩ := Finset.mem_erase.mp hother
      have hone := (h.paced b hb slot hslot).1
      rw [hone] at hmem
      exact absurd (Finset.mem_singleton.mp hmem) hne
  · rwa [h.release_spent hslot]

/-- A pending call goes on record. -/
theorem spend (h : Kept policy starts clock l) (hslot : slot ∈ l.pending) {bucket : β} {spacing : Option β}
    (hbucket : Holds policy.rate ((starts ++ [clock]).map millis) (millis clock) bucket)
    (hitems : items bucket = items l.bucket ++ [millis clock]) (hpaces : spacing.isSome = l.spacing.isSome)
    (hspacing : ∀ b, spacing = some b →
      Holds policy.spacingRate ((starts ++ [clock]).map millis) (millis clock) b) :
    Kept policy (starts ++ [clock]) clock ({ l with bucket := bucket, spacing := spacing }.spend slot) := by
  have hpositive := h.positive slot hslot
  have hsub : ∀ other ∈ ({ l with bucket := bucket, spacing := spacing }.spend slot).pending, other ∈ l.pending := by
    intro other hother
    unfold Limiter.spend at hother
    dsimp only at hother
    split at hother
    · exact Finset.mem_of_mem_erase hother
    · exact hother
  refine ⟨h.fixed, hbucket, hpaces ▸ h.paces, hspacing, ?_, ?_, ?_, fun other hother => h.issued other (hsub other hother), ?_⟩
  · have hcapacity := h.capacity
    have hsum : ({ l with bucket := bucket, spacing := spacing }.spend slot).pendingWeight = l.pendingWeight - 1 :=
      Limiter.pendingWeight_spend hslot
    rw [hsum]
    change ((items bucket).length : ℤ) + (l.pendingWeight - 1) ≤ _
    rw [hitems, List.length_append, List.length_singleton]
    push_cast
    omega
  · intro other hother
    by_cases hne : other = slot
    · subst hne
      have hleft : l.remaining other - 1 ≠ 0 := by
        intro hzero
        simp [Limiter.spend, hzero] at hother
      simp only [Limiter.spend, Function.update_self]
      omega
    · exact (h.positive other (hsub other hother)).trans_eq (Function.update_of_ne hne _ _).symm
  · intro other hother
    by_cases hne : other = slot
    · subst hne
      have hleft : l.remaining other - 1 = 0 := by
        by_contra hmore
        simp [Limiter.spend, hmore, hslot] at hother
      exact (Function.update_self _ _ _).trans hleft
    · have hold : other ∉ l.pending := by
        intro hmem
        apply hother
        simp only [Limiter.spend]
        split
        · exact Finset.mem_erase.mpr ⟨hne, hmem⟩
        · exact hmem
      exact (Function.update_of_ne hne _ _).trans (h.spent other hold)
  · intro b hb other hother
    obtain ⟨b', hb'⟩ : ∃ b', l.spacing = some b' := by
      rw [← Option.isSome_iff_exists, ← hpaces]
      exact Option.isSome_of_mem hb
    obtain ⟨hone, hleft, _⟩ := h.paced b' hb' slot hslot
    simp [Limiter.spend, hone, hleft] at hother

/-- What is started within the window or pending stays within the budget, at any later time. -/
theorem started_within (h : Kept policy starts clock l) (hnow : clock ≤ now) :
    ((within policy.windowSeconds now starts).length : ℤ) + l.pendingWeight ≤ policy.calls := by
  have hmillis := within_millis_length policy.windowSeconds now starts
  have hitems : (within (widthMillis policy.windowSeconds) (millis now) (starts.map millis)).length ≤
      (items l.bucket).length := h.bucket.within_length_le (millis_mono hnow)
  have hcapacity := h.capacity
  omega

theorem spaced (h : Kept policy starts clock l) (hpaced : policy.minIntervalSeconds ≠ 0) :
    Spread 1 policy.minIntervalSeconds starts := by
  obtain ⟨b, hb⟩ := Option.isSome_iff_exists.mp (h.paces.mpr hpaced)
  exact spread_seconds (h.spacing b hb).spread

variable [LawfulBucket β]

theorem new (policy : RateLimitPolicy) (clock : ℚ) : Kept policy [] clock (.new policy : Limiter β) where
  fixed := rfl
  bucket := .fresh policy.rate _
  paces := by
    by_cases hpaced : policy.minIntervalSeconds = 0 <;> simp [Limiter.new, hpaced]
  spacing := by
    intro b hb
    unfold Limiter.new at hb
    split at hb
    · cases hb
    · rw [← Option.some.inj hb]
      exact .fresh policy.spacingRate _
  capacity := by
    have := policy.calls_pos
    simp only [Limiter.new, items_new, Limiter.pendingWeight, Finset.sum_empty, List.length_nil]
    omega
  positive := by simp [Limiter.new]
  spent := fun _ _ => rfl
  issued := by simp [Limiter.new]
  paced := by simp [Limiter.new]

theorem prune (h : Kept policy starts clock l) : Kept policy starts clock (l.prune clock) :=
  { h with
    bucket := h.bucket.leak
    paces := by rw [← h.paces, Limiter.prune, Option.isSome_map]
    spacing := by
      intro b hb
      obtain ⟨b', hb', rfl⟩ := Option.map_eq_some_iff.mp hb
      exact (h.spacing b' hb').leak
    capacity := by
      have hfewer := h.bucket.within_length_le (le_refl (millis clock))
      have hcapacity := h.capacity
      change ((items (leak (millis clock) l.bucket)).length : ℤ) + l.pendingWeight ≤ _
      rw [h.bucket.items_leak]
      omega
    paced := by
      intro b hb slot hslot
      obtain ⟨b', hb', rfl⟩ := Option.map_eq_some_iff.mp hb
      obtain ⟨hone, hleft, hnone⟩ := h.paced b' hb' slot hslot
      refine ⟨hone, hleft, ?_⟩
      rw [LawfulBucket.items_leak _ _ (h.spacing b' hb').items_sorted, hnone, within_nil] }

theorem book (h : Kept policy starts clock l) {weight : ℤ} (hfree : l.Free weight) :
    Kept policy starts clock (l.book weight) := by
  have hnew := h.issued_notMem
  refine { h with capacity := ?_, positive := ?_, spent := ?_, issued := ?_, paced := ?_ }
  · have hcapacity := hfree.capacity
    rw [count_eq, h.fixed] at hcapacity
    rw [Limiter.pendingWeight_book hnew]
    change ((items l.bucket).length : ℤ) + _ ≤ _
    omega
  · intro slot hslot
    rcases Finset.mem_insert.mp hslot with rfl | hold
    · exact hfree.positive.trans_eq (Function.update_self l.issued weight l.remaining).symm
    · exact (h.positive slot hold).trans_eq (Function.update_of_ne (ne_of_mem_of_not_mem hold hnew) _ _).symm
  · intro slot hslot
    obtain ⟨hne, hold⟩ := not_or.mp (mt Finset.mem_insert.mpr hslot)
    exact (Function.update_of_ne hne _ _).trans (h.spent slot hold)
  · intro slot hslot
    rcases Finset.mem_insert.mp hslot with rfl | hold
    · exact Nat.lt_succ_self _
    · exact Nat.lt_succ_of_lt (h.issued slot hold)
  · intro b hb slot hslot
    obtain ⟨rfl, hnone, hpeek⟩ := hfree.paced b hb
    have hitems : items b = [] := by
      have hlast := LawfulBucket.peek_eq 0 b
      rw [Nat.cast_zero, hpeek] at hlast
      simpa using hlast.symm
    have hpending : (l.book 1).pending = {l.issued} := by
      change insert l.issued l.pending = _
      rw [hnone, insert_empty_eq]
    rw [hpending] at hslot ⊢
    rw [Finset.mem_singleton.mp hslot]
    exact ⟨rfl, Function.update_self _ _ _, hitems⟩

theorem tryReserve (h : Kept policy starts clock l) (weight : ℤ) (ticket : Option ℕ) :
    Kept policy starts clock (l.tryReserve weight ticket clock).2 := by
  rcases Limiter.tryReserve_cases weight ticket clock l with ⟨_, hsame | hpruned⟩ | ⟨hfree, hreserved⟩
  · rw [hsame]
    exact h
  · rw [hpruned]
    exact h.prune
  · rw [hreserved]
    exact h.prune.book hfree

/-- A pending reservation can start: the window has room for what is pending. -/
theorem start (h : Kept policy starts clock l) (hslot : slot ∈ l.pending) :
    ∃ l', l.start slot clock = (.ok (), l') ∧ Kept policy (starts ++ [clock]) clock l' ∧
      l'.remaining = Function.update l.remaining slot (l.remaining slot - 1) ∧ l'.issued = l.issued ∧
      l'.waiters = l.waiters := by
  have hpruned := h.prune
  have hwidth : 0 ≤ policy.rate.interval := widthMillis_nonneg policy.window_nonneg
  have hitems : items (l.prune clock).bucket = within policy.rate.interval (millis clock) (starts.map millis) :=
    h.bucket.items_leak
  have hroom : ((within policy.rate.interval (millis clock) (starts.map millis)).length : ℤ) < policy.rate.limit := by
    have hcapacity := hpruned.capacity
    have hpositive := hpruned.positive slot hslot
    have hle := hpruned.remaining_le hslot
    rw [hitems] at hcapacity
    change _ < policy.calls
    omega
  obtain ⟨bucket, hput⟩ := Option.isSome_iff_exists.mp (hpruned.bucket.put_isSome_iff.mpr hroom)
  have hbucket : Holds policy.rate ((starts ++ [clock]).map millis) (millis clock) bucket := by
    rw [List.map_append]
    exact hpruned.bucket.put hwidth hitems hput
  cases hspacing : (l.prune clock).spacing with
  | none =>
      refine ⟨{ l.prune clock with bucket := bucket, spacing := none }.spend slot, ?_, ?_, rfl, rfl, rfl⟩
      · simp only [Limiter.start, if_pos hslot, hput, hspacing]
      · exact hpruned.spend hslot hbucket (items_put hput) (by rw [hspacing]) nofun
  | some b =>
      obtain ⟨_, _, hnone⟩ := hpruned.paced b hspacing slot hslot
      have hb := hpruned.spacing b hspacing
      have hitems' : items b = within policy.spacingRate.interval (millis clock) (starts.map millis) := by
        obtain ⟨b', _, rfl⟩ := Option.map_eq_some_iff.mp hspacing
        exact (h.spacing b' ‹_›).items_leak
      have hroom' : ((within policy.spacingRate.interval (millis clock) (starts.map millis)).length : ℤ) <
          policy.spacingRate.limit := by
        rw [← hitems', hnone]
        exact zero_lt_one
      obtain ⟨b', hput'⟩ := Option.isSome_iff_exists.mp (hb.put_isSome_iff.mpr hroom')
      refine ⟨{ l.prune clock with bucket := bucket, spacing := some b' }.spend slot, ?_, ?_, rfl, rfl, rfl⟩
      · simp only [Limiter.start, if_pos hslot, hput, hspacing, hput']
      · refine hpruned.spend hslot hbucket (items_put hput) (by rw [hspacing, Option.isSome_some, Option.isSome_some]) ?_
        intro c hc
        rw [← Option.some.inj hc, List.map_append]
        exact hb.put (widthMillis_nonneg policy.interval_nonneg) hitems' hput'

/-- What a reservation had left can be reserved again once it is released. -/
theorem reserve_released (h : Kept policy starts clock l) (hslot : slot ∈ l.pending) {weight : ℤ} {ticket : Option ℕ}
    (hpositive : 1 ≤ weight) (hleft : weight ≤ l.remaining slot)
    (hfirst : l.waiters = [] ∨ l.waiters.head? = ticket) :
    (l.release slot).tryReserve weight ticket clock = (.reserved l.issued, ((l.release slot).prune clock).book weight) := by
  have hkept := (h.release slot).prune
  have hpruned := h.prune
  have hsum := Limiter.pendingWeight_release hslot
  have hle := h.remaining_le hslot
  have hcapacity := hpruned.capacity
  have hfits : count ((l.release slot).prune clock).bucket + ((l.release slot).prune clock).pendingWeight + weight ≤
      ((l.release slot).prune clock).policy.calls := by
    rw [count_eq, hkept.fixed]
    change ((items (l.prune clock).bucket).length : ℤ) + (l.release slot).pendingWeight + weight ≤ _
    change ((items (l.prune clock).bucket).length : ℤ) + l.pendingWeight ≤ _ at hcapacity
    omega
  have hspacing : ((l.release slot).prune clock).checkSpacing weight clock = none := by
    rw [Limiter.checkSpacing_eq_none]
    intro b hb
    obtain ⟨hone, hlast, hnone⟩ := hpruned.paced b hb slot hslot
    change l.pending = {slot} at hone
    change l.remaining slot = 1 at hlast
    refine ⟨by omega, ?_, ?_⟩
    · change l.pending.erase slot = ∅
      rw [hone, Finset.erase_singleton]
    · have hpeek := LawfulBucket.peek_eq 0 b
      rw [hnone, List.reverse_nil, List.getElem?_nil] at hpeek
      exact hpeek
  have hweight : ¬(weight < 1 ∨ (l.release slot).policy.calls < weight) := by
    change ¬(weight < 1 ∨ l.policy.calls < weight)
    have hfew := h.capacity
    rw [h.fixed]
    omega
  have hqueue : ¬(((l.release slot).prune clock).waiters ≠ [] ∧ ((l.release slot).prune clock).waiters.head? ≠ ticket) := by
    change ¬(l.waiters ≠ [] ∧ l.waiters.head? ≠ ticket)
    rcases hfirst with hnone | hhead
    · exact fun hwait => hwait.1 hnone
    · exact fun hwait => hwait.2 hhead
  unfold Limiter.tryReserve
  rw [if_neg hweight]
  dsimp only
  rw [if_neg hqueue, hspacing]
  dsimp only
  rw [if_pos hfits]
  rfl

end Kept

/-- What a step does to the limiter, and to the record of the starts. -/
inductive Change (clock : ℚ) (l : Limiter β) (starts : List ℚ) : Limiter β → List ℚ → Prop
  | queue (tickets : List ℕ) : Change clock l starts { l with waiters := tickets } starts
  | prune : Change clock l starts (l.prune clock) starts
  | reserve (weight : ℤ) (ticket : Option ℕ) : Change clock l starts (l.tryReserve weight ticket clock).2 starts
  | started (slot : ℕ) (l' : Limiter β) (h : l.start slot clock = (.ok (), l')) :
      Change clock l starts l' (starts ++ [clock])
  | rejected (slot : ℕ) (e : LimitError) (l' : Limiter β) (h : l.start slot clock = (.error e, l')) :
      Change clock l starts l' starts
  | release (slot : ℕ) : Change clock l starts (l.release slot) starts

theorem Limiter.start_not_pending {slot : ℕ} {now : ℚ} {l : Limiter β} (h : slot ∉ l.pending) :
    l.start slot now = (.error (.runtime "Provider request reservation already released or used"), l) :=
  if_neg h

theorem Limiter.reserve_limiter (weight : ℤ) (now : ℚ) (l : Limiter β) :
    (l.reserve weight now).2 = (l.tryReserve weight none now).2 := by
  unfold Limiter.reserve
  split <;> simp only [*]

namespace Change

variable [LawfulBucket β] {policy : RateLimitPolicy} {starts starts' : List ℚ} {clock : ℚ} {l l' : Limiter β} {slot : ℕ}

theorem kept (h : Change clock l starts l' starts') (hkept : Kept policy starts clock l) :
    Kept policy starts' clock l' := by
  cases h with
  | queue tickets => exact hkept.waiters tickets
  | prune => exact hkept.prune
  | reserve weight ticket => exact hkept.tryReserve weight ticket
  | started slot l' h =>
      by_cases hslot : slot ∈ l.pending
      · obtain ⟨l'', hok, hstarted, _⟩ := hkept.start hslot
        rw [hok] at h
        cases h
        exact hstarted
      · rw [Limiter.start_not_pending hslot] at h
        cases h
  | rejected slot e l' h =>
      by_cases hslot : slot ∈ l.pending
      · obtain ⟨l'', hok, _⟩ := hkept.start hslot
        rw [hok] at h
        cases h
      · rw [Limiter.start_not_pending hslot] at h
        cases h
        exact hkept
  | release slot => exact hkept.release slot

/-- Nothing but a new reservation gives a reservation more to start. -/
theorem remaining_le (h : Change clock l starts l' starts') (hkept : Kept policy starts clock l)
    (hslot : slot < l.issued) : l'.remaining slot ≤ l.remaining slot ∧ slot < l'.issued := by
  have hnonneg : 0 ≤ l.remaining slot := by
    by_cases hpending : slot ∈ l.pending
    · exact (hkept.positive slot hpending).trans' zero_le_one
    · exact (hkept.spent slot hpending).ge
  cases h with
  | queue tickets => exact ⟨le_refl _, hslot⟩
  | prune => exact ⟨le_refl _, hslot⟩
  | reserve weight ticket =>
      rcases Limiter.tryReserve_cases weight ticket clock l with ⟨_, hsame | hpruned⟩ | ⟨_, hreserved⟩
      · rw [hsame]
        exact ⟨le_refl _, hslot⟩
      · rw [hpruned]
        exact ⟨le_refl _, hslot⟩
      · rw [hreserved]
        exact ⟨(Function.update_of_ne hslot.ne _ _).le, Nat.lt_succ_of_lt hslot⟩
  | started other l' h =>
      by_cases hother : other ∈ l.pending
      · obtain ⟨l'', hok, _, hremaining, hissued, _⟩ := hkept.start hother
        rw [hok] at h
        cases h
        rw [hremaining, hissued]
        refine ⟨?_, hslot⟩
        by_cases hsame : slot = other
        · rw [hsame, Function.update_self]
          omega
        · rw [Function.update_of_ne hsame]
      · rw [Limiter.start_not_pending hother] at h
        cases h
  | rejected other e l' h =>
      by_cases hother : other ∈ l.pending
      · obtain ⟨l'', hok, _⟩ := hkept.start hother
        rw [hok] at h
        cases h
      · rw [Limiter.start_not_pending hother] at h
        cases h
        exact ⟨le_refl _, hslot⟩
  | release other =>
      refine ⟨?_, hslot⟩
      change Function.update l.remaining other 0 slot ≤ _
      by_cases hsame : slot = other
      · rw [hsame, Function.update_self, ← hsame]
        exact hnonneg
      · rw [Function.update_of_ne hsame]

end Change

end MoomooMcp.RateLimit
