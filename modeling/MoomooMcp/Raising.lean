import Mathlib.Logic.Basic

namespace MoomooMcp

variable {ε ε' α β : Type} {P Q : ε → Prop} {x : Except ε α} {f : α → Except ε β}

/-- The computation ends with an error of a kind. -/
def Raises (P : ε → Prop) (x : Except ε α) : Prop := ∃ e, x = .error e ∧ P e

namespace Raises

@[simp] theorem of_ok (a : α) : ¬Raises P (.ok a : Except ε α) := fun ⟨_, h, _⟩ => nomatch h

@[simp] theorem of_pure (a : α) : ¬Raises P (pure a : Except ε α) := of_ok a

@[simp] theorem of_error (e : ε) : Raises P (.error e : Except ε α) ↔ P e :=
  ⟨fun ⟨_, h, hP⟩ => by cases h; exact hP, fun hP => ⟨e, rfl, hP⟩⟩

/-- A sequence fails in its first part or, if that returns, in the rest. -/
theorem bind : Raises P (x >>= f) ↔ Raises P x ∨ ∃ a, x = .ok a ∧ Raises P (f a) := by
  cases x with
  | error e =>
      change Raises P (.error e) ↔ _
      simp
  | ok a =>
      change Raises P (f a) ↔ _
      simp

/-- A part that cannot fail in this way only decides how the rest goes on. -/
theorem bind_of_not (h : ¬Raises P x) : Raises P (x >>= f) ↔ ∃ a, x = .ok a ∧ Raises P (f a) := by
  rw [bind, or_iff_right h]

theorem not_bind (h : ¬Raises P x) (hf : ∀ a, x = .ok a → ¬Raises P (f a)) : ¬Raises P (x >>= f) := by
  rw [bind_of_not h]
  exact fun ⟨a, ha, hr⟩ => hf a ha hr

theorem map (g : α → β) : Raises P (x.map g) ↔ Raises P x := by
  cases x with
  | error e =>
      change Raises P (.error e) ↔ _
      simp
  | ok a =>
      change Raises P (.ok (g a)) ↔ _
      simp

/-- Errors that are translated are of a kind if they were of the kind translated to it. -/
theorem mapError (g : ε' → ε) (x : Except ε' α) : Raises P (x.mapError g) ↔ Raises (fun e => P (g e)) x := by
  cases x with
  | error e =>
      change Raises P (.error (g e)) ↔ _
      simp
  | ok a =>
      change Raises P (.ok a) ↔ _
      simp

theorem congr (h : ∀ e, P e ↔ Q e) : Raises P x ↔ Raises Q x := exists_congr (fun e => and_congr_right (fun _ => h e))

theorem mono (h : ∀ e, P e → Q e) (hx : Raises P x) : Raises Q x := by
  obtain ⟨e, he, hP⟩ := hx
  exact ⟨e, he, h e hP⟩

theorem not_ite {p : Prop} [Decidable p] {y : Except ε α} (hx : ¬Raises P x) (hy : ¬Raises P y) :
    ¬Raises P (if p then x else y) := by
  by_cases h : p
  · rwa [if_pos h]
  · rwa [if_neg h]

end Raises

end MoomooMcp
