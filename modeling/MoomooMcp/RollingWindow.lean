import Mathlib.Algebra.Order.Group.Defs
import Mathlib.Algebra.Order.Sub.Defs
import Mathlib.Tactic.Abel

namespace MoomooMcp.RollingWindow

variable {τ : Type} [AddCommGroup τ] [LinearOrder τ]

/-- The times that lie no further back than the width of the window. -/
def within (width now : τ) (ts : List τ) : List τ := ts.filter (fun t => now - t ≤ width)

/-- Any `n + 1` consecutive times span more than the width. -/
def Spread (n : ℕ) (width : τ) (ts : List τ) : Prop :=
  ∀ i a b, ts[i]? = some a → ts[i + n]? = some b → width < b - a

variable {n : ℕ} {width now now' t : τ} {ts : List τ}

@[simp] theorem within_nil : within width now [] = [] := rfl

theorem within_append (us : List τ) : within width now (ts ++ us) = within width now ts ++ within width now us :=
  List.filter_append ts us

theorem within_length_le : (within width now ts).length ≤ ts.length := List.length_filter_le _ ts

theorem within_all (h : ∀ t ∈ ts, now - t ≤ width) : within width now ts = ts := by
  unfold within
  rw [List.filter_eq_self]
  intro t ht
  exact decide_eq_true (h t ht)

theorem spread_nil : Spread n width ([] : List τ) := by
  intro i a b ha
  simp at ha

variable [IsOrderedAddMonoid τ]

theorem within_self (h : 0 ≤ width) : within width now [now] = [now] := by
  simp [within, h]

/-- A window that moved on forgets nothing it would still hold. -/
theorem within_within (h : now ≤ now') : within width now' (within width now ts) = within width now' ts := by
  unfold within
  rw [List.filter_filter]
  refine List.filter_congr (fun t _ => ?_)
  simp only [Bool.and_eq_decide, decide_eq_decide, decide_eq_true_eq]
  exact and_iff_left_of_imp (fun hle => (sub_le_sub_right h t).trans hle)

/-- One more time keeps the spread if the window behind it holds fewer than `n`. -/
theorem Spread.snoc (h : Spread n width ts) (hsorted : ts.Pairwise (· ≤ ·))
    (hfew : (within width now ts).length < n) : Spread n width (ts ++ [now]) := by
  intro i a b ha hb
  have hi : i + n < ts.length + 1 := by
    have hlt := (List.getElem?_eq_some_iff.mp hb).1
    rwa [List.length_append, List.length_singleton] at hlt
  have hn : 0 < n := by omega
  rw [List.getElem?_append_left (by omega)] at ha
  by_cases hlast : i + n < ts.length
  · rw [List.getElem?_append_left hlast] at hb
    exact h i a b ha hb
  · have hlength : ts.length = i + n := by omega
    rw [List.getElem?_append_right (by omega), hlength, Nat.sub_self] at hb
    simp only [List.getElem?_cons_zero, Option.some.injEq] at hb
    subst hb
    -- Were the first of them still within the window, all those after it would be, too.
    by_contra hnear
    rw [not_lt] at hnear
    have hdrop : within width now (ts.drop i) = ts.drop i := by
      refine within_all (fun t ht => ?_)
      have hat : a ≤ t := by
        have hcons : ts.drop i = a :: ts.drop (i + 1) := by
          obtain ⟨hlt, he⟩ := List.getElem?_eq_some_iff.mp ha
          rw [List.drop_eq_getElem_cons hlt, he]
        have hpair := hsorted.sublist (List.drop_sublist i ts)
        rw [hcons] at ht hpair
        rcases List.mem_cons.mp ht with rfl | hmem
        · exact le_refl t
        · exact List.rel_of_pairwise_cons hpair hmem
      exact (sub_le_sub_left hat now).trans hnear
    have hsplit : within width now ts = within width now (ts.take i) ++ ts.drop i := by
      rw [← hdrop, ← within_append, List.take_append_drop]
    rw [hsplit, List.length_append, List.length_drop] at hfew
    omega

end MoomooMcp.RollingWindow
