import Mathlib.Data.List.Nodup

namespace MoomooMcp.WindowedLog

variable {α : Type} {p : α → Bool}

/-- The first members of a filtered list are those of some prefix of the list, and
the last of them ends that prefix. -/
theorem take_filter {l : List α} {k : ℕ} (hk : 0 < k) (hlen : k ≤ (l.filter p).length) :
    ∃ j x, j < l.length ∧ l[j]? = some x ∧ (l.filter p).take k = (l.take (j + 1)).filter p ∧
      ((l.filter p).take k).getLast? = some x := by
  induction l generalizing k with
  | nil => simp at hlen; omega
  | cons a l ih =>
      by_cases ha : p a = true
      · rw [List.filter_cons_of_pos ha] at hlen ⊢
        obtain ⟨k, rfl⟩ : ∃ m, k = m + 1 := ⟨k - 1, by omega⟩
        by_cases hz : k = 0
        · subst k
          exact ⟨0, a, by simp, rfl, by simp [ha], by simp⟩
        · rw [List.length_cons] at hlen
          obtain ⟨j, x, hj, hx, htake, hlast⟩ := ih (by omega : 0 < k) (by omega)
          refine ⟨j + 1, x, by simpa using hj, by simpa using hx, ?_, ?_⟩
          · rw [List.take_succ_cons, List.take_succ_cons, List.filter_cons_of_pos ha, htake]
          · rw [List.take_succ_cons, List.getLast?_cons, hlast, Option.getD_some]
      · rw [List.filter_cons_of_neg ha] at hlen ⊢
        obtain ⟨j, x, hj, hx, htake, hlast⟩ := ih hk hlen
        refine ⟨j + 1, x, by simpa using hj, by simpa using hx, ?_, hlast⟩
        rw [List.take_succ_cons, List.filter_cons_of_neg ha, htake]

theorem take_append_drop_sublist {l : List α} {k m n : ℕ} (hkn : k ≤ n) (hkm : k ≤ m) :
    (l.take k ++ (l.take n).drop m).Sublist (l.take n) := by
  have hsplit : (l.take n).take m ++ (l.take n).drop m = l.take n := List.take_append_drop m (l.take n)
  have htake : l.take k = ((l.take n).take m).take k := by
    rw [List.take_take, List.take_take, Nat.min_eq_left hkm, Nat.min_eq_left hkn]
  conv_rhs => rw [← hsplit]
  rw [htake]
  exact (List.take_sublist _ _).append (List.Sublist.refl _)

/-- A log whose members carry their place in it, counted from one. -/
def Numbered (sequence : α → ℕ) (log : List α) : Prop := ∀ i x, log[i]? = some x → sequence x = i + 1

variable {sequence : α → ℕ} {log : List α}

theorem Numbered.append (h : Numbered sequence log) {x : α} (hx : sequence x = log.length + 1) :
    Numbered sequence (log ++ [x]) := by
  intro i y hy
  by_cases hi : i < log.length
  · rw [List.getElem?_append_left hi] at hy
    exact h i y hy
  · rw [List.getElem?_append_right (by omega)] at hy
    cases hn : i - log.length with
    | zero =>
        rw [hn] at hy
        cases hy
        omega
    | succ n =>
        rw [hn] at hy
        cases hy

theorem Numbered.index (h : Numbered sequence log) {x : α} (hx : x ∈ log) :
    0 < sequence x ∧ sequence x ≤ log.length ∧ log[sequence x - 1]? = some x := by
  obtain ⟨i, hi⟩ := List.mem_iff_getElem?.mp hx
  have hs := h i x hi
  obtain ⟨hlt, _⟩ := List.getElem?_eq_some_iff.mp hi
  refine ⟨by omega, by omega, ?_⟩
  rw [hs, Nat.add_sub_cancel]
  exact hi

theorem Numbered.nodup (h : Numbered sequence log) : log.Nodup := by
  refine List.nodup_iff_getElem?_ne_getElem?.mpr (fun i j hij hj he => ?_)
  obtain ⟨x, hx⟩ : ∃ x, log[j]? = some x := ⟨log[j], List.getElem?_eq_getElem hj⟩
  have hi := h i x (he.trans hx)
  have hj' := h j x hx
  omega

/-- Membership in a suffix is a bound on the number. -/
theorem Numbered.mem_drop (h : Numbered sequence log) {x : α} {n : ℕ} :
    x ∈ log.drop n ↔ x ∈ log ∧ n < sequence x := by
  constructor
  · intro hx
    obtain ⟨i, hi⟩ := List.mem_iff_getElem?.mp hx
    rw [List.getElem?_drop] at hi
    have hs := h _ x hi
    exact ⟨List.mem_of_mem_drop hx, by omega⟩
  · rintro ⟨hx, hn⟩
    obtain ⟨hpos, _, hi⟩ := h.index hx
    refine List.mem_iff_getElem?.mpr ⟨sequence x - 1 - n, ?_⟩
    rw [List.getElem?_drop, show n + (sequence x - 1 - n) = sequence x - 1 by omega]
    exact hi

theorem Numbered.mem_take (h : Numbered sequence log) {x : α} {n : ℕ} :
    x ∈ log.take n ↔ x ∈ log ∧ sequence x ≤ n := by
  constructor
  · intro hx
    obtain ⟨i, hi⟩ := List.mem_iff_getElem?.mp hx
    rw [List.getElem?_take] at hi
    split at hi
    · have hs := h _ x hi
      exact ⟨List.mem_of_mem_take hx, by omega⟩
    · cases hi
  · rintro ⟨hx, hn⟩
    obtain ⟨hpos, _, hi⟩ := h.index hx
    refine List.mem_iff_getElem?.mpr ⟨sequence x - 1, ?_⟩
    rw [List.getElem?_take, if_pos (by omega)]
    exact hi

/-- Filtering a suffix by a bound on the numbers cuts a longer prefix off. -/
theorem Numbered.filter_after (h : Numbered sequence log) (m n : ℕ) :
    (log.drop m).filter (fun x => n < sequence x) = log.drop (max m n) := by
  have hright : ∀ k, n ≤ k → (log.drop k).filter (fun x => n < sequence x) = log.drop k := by
    intro k hk
    refine List.filter_eq_self.mpr (fun x hx => ?_)
    have hlt : k < sequence x := (h.mem_drop.mp hx).2
    simp only [decide_eq_true_eq]
    omega
  by_cases hnm : n ≤ m
  · rw [Nat.max_eq_left hnm]
    exact hright m hnm
  · have hle : m ≤ n := by omega
    have hsplit : log.drop m = (log.take n).drop m ++ log.drop n := by
      rw [List.drop_take]
      conv_lhs => rw [← List.take_append_drop (n - m) (log.drop m), List.drop_drop]
      congr 2
      omega
    have hleft : ((log.take n).drop m).filter (fun x => n < sequence x) = [] := by
      refine List.filter_eq_nil_iff.mpr (fun x hx => ?_)
      have hle' : sequence x ≤ n := (h.mem_take.mp (List.mem_of_mem_drop hx)).2
      simpa using hle'
    rw [Nat.max_eq_right hle, hsplit, List.filter_append, hleft, hright n (Nat.le_refl n), List.nil_append]

end MoomooMcp.WindowedLog
