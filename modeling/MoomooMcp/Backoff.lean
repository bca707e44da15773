import Mathlib.Order.Basic
import Mathlib.Algebra.Group.Defs

namespace MoomooMcp.Backoff

variable {τ : Type} [Add τ] [Preorder τ]

/-- The start and the completion of one attempt. -/
abbrev Span (τ : Type) := τ × τ

/-- Each attempt starts no earlier than its gap after the one before it completed. -/
def Spaced (gap : ℕ → τ) (l : List (Span τ)) : Prop :=
  ∀ i a b, l[i]? = some a → l[i + 1]? = some b → a.2 + gap i ≤ b.1

/-- The next attempt is put off until its gap is over. -/
def PutOff (gap : ℕ → τ) (l : List (Span τ)) (next : τ) : Prop :=
  ∀ a, l.getLast? = some a → a.2 + gap (l.length - 1) ≤ next

variable {gap : ℕ → τ} {l : List (Span τ)} {a : Span τ} {next next' : τ}

theorem spaced_nil : Spaced gap [] := by
  intro i a b ha
  simp at ha

theorem putOff_nil : PutOff gap [] next := by
  intro a ha
  simp at ha

theorem PutOff.later (h : PutOff gap l next) (hle : next ≤ next') : PutOff gap l next' := by
  intro a ha
  exact (h a ha).trans hle

theorem putOff_snoc (h : a.2 + gap l.length ≤ next) : PutOff gap (l ++ [a]) next := by
  intro b hb
  simp only [List.getLast?_append, List.getLast?_singleton, Option.some_or, Option.some.injEq] at hb
  subst hb
  simpa using h

/-- An attempt that waited for its time keeps the schedule. -/
theorem Spaced.snoc (h : Spaced gap l) (hput : PutOff gap l next) (hnext : next ≤ a.1) : Spaced gap (l ++ [a]) := by
  intro i b c hb hc
  have hi : i + 1 < (l ++ [a]).length := (List.getElem?_eq_some_iff.mp hc).1
  rw [List.length_append, List.length_singleton] at hi
  rw [List.getElem?_append_left (by omega)] at hb
  by_cases hlast : i + 1 < l.length
  · rw [List.getElem?_append_left hlast] at hc
    exact h i b c hb hc
  · have hlength : l.length = i + 1 := by omega
    rw [List.getElem?_append_right (by omega), hlength, Nat.sub_self] at hc
    simp only [List.getElem?_cons_zero, Option.some.injEq] at hc
    subst hc
    have hend : l.getLast? = some b := by
      rw [List.getLast?_eq_getElem?, hlength]
      exact hb
    have hgap := hput b hend
    rw [hlength, Nat.add_sub_cancel] at hgap
    exact hgap.trans hnext

end MoomooMcp.Backoff
