import Mathlib.Algebra.Order.Group.Defs
import Mathlib.Algebra.Order.Sub.Defs
import Mathlib.Data.List.Count
import Mathlib.Data.List.Induction

namespace MoomooMcp.Chronicle

section

variable {α : Type} {P Q : List α → α → Prop} {log : List α} {x : α}

/-- Each entry of a log stands in a relation to those before it. -/
def Ever (P : List α → α → Prop) (log : List α) : Prop :=
  ∀ before x after, log = before ++ x :: after → P before x

theorem ever_nil : Ever P [] := by
  intro before x after h
  simp at h

/-- A place in a log with one more entry is a place of the log, or that entry. -/
theorem split_snoc {before after : List α} {y : α} (h : log ++ [x] = before ++ y :: after) :
    (∃ rest, log = before ++ y :: rest ∧ after = rest ++ [x]) ∨ (log = before ∧ x = y ∧ after = []) := by
  cases after using List.reverseRecOn with
  | nil =>
      obtain ⟨hl, hx⟩ := List.append_inj' h rfl
      exact .inr ⟨hl, List.head_eq_of_cons_eq hx, rfl⟩
  | append_singleton rest z =>
      rw [← List.cons_append, ← List.append_assoc] at h
      obtain ⟨hl, hx⟩ := List.append_inj' h rfl
      exact .inl ⟨rest, hl, by rw [List.head_eq_of_cons_eq hx]⟩

theorem Ever.snoc (h : Ever P log) (hx : P log x) : Ever P (log ++ [x]) := by
  intro before y after hsplit
  rcases split_snoc hsplit with ⟨rest, hlog, -⟩ | ⟨rfl, rfl, -⟩
  · exact h before y rest hlog
  · exact hx

end

section

variable {τ : Type} [AddCommGroup τ] [LinearOrder τ]

/-- The times of a window that ends now, where all of them have passed. -/
def recent (width now : τ) (ts : List τ) : List τ := ts.filter (fun t => now - t < width)

/-- The times of the window that ends at `t`. -/
def inWindow (width t : τ) (ts : List τ) : List τ := ts.filter (fun u => u ≤ t ∧ t - u < width)

variable {width now t : τ} {ts : List τ} {n : ℕ}

theorem inWindow_eq_recent (h : ∀ u ∈ ts, u ≤ now) : inWindow width now ts = recent width now ts := by
  refine List.filter_congr (fun u hu => ?_)
  rw [decide_eq_decide]
  exact and_iff_right (h u hu)

theorem recent_append (us : List τ) : recent width now (ts ++ us) = recent width now ts ++ recent width now us :=
  List.filter_append ts us

theorem inWindow_length : (inWindow width t ts).length = ts.countP (fun u => u ≤ t ∧ t - u < width) :=
  List.countP_eq_length_filter.symm

variable [IsOrderedAddMonoid τ]

/-- What a window forgets it would not hold later on either. -/
theorem recent_recent (h : now ≤ t) : recent width t (recent width now ts) = recent width t ts := by
  unfold recent
  rw [List.filter_filter]
  refine List.filter_congr (fun u _ => ?_)
  rw [Bool.and_eq_decide, decide_eq_decide, decide_eq_true_eq, decide_eq_true_eq]
  exact and_iff_left_of_imp (fun hlt => (sub_le_sub_right h u).trans_lt hlt)

/-- If the window that ends now has room, no window holds too much after one more time. -/
theorem inWindow_snoc (hpast : ∀ u ∈ ts, u ≤ now) (hroom : (inWindow width now ts).length < n)
    (h : ∀ t, (inWindow width t ts).length ≤ n) (t : τ) : (inWindow width t (ts ++ [now])).length ≤ n := by
  simp only [inWindow_length] at hroom h ⊢
  rw [List.countP_append]
  by_cases ht : now ≤ t
  · have hmono : ts.countP (fun u => u ≤ t ∧ t - u < width) ≤ ts.countP (fun u => u ≤ now ∧ now - u < width) := by
      refine List.countP_mono_left (fun u hu hw => ?_)
      have hlt := (of_decide_eq_true hw).2
      exact decide_eq_true ⟨hpast u hu, (sub_le_sub_right ht u).trans_lt hlt⟩
    have hone : [now].countP (fun u => decide (u ≤ t ∧ t - u < width)) ≤ 1 := List.countP_le_length
    omega
  · have hnone : [now].countP (fun u => decide (u ≤ t ∧ t - u < width)) = 0 := by
      simp [ht]
    have hle := h t
    omega

end

end MoomooMcp.Chronicle
