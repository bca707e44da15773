import Mathlib.Data.Fintype.Card
import Mathlib.Data.List.Nodup

namespace MoomooMcp.Trail

variable {α : Type} (next : α → Option α)

/-- Follow a chain of links until it ends or comes back to where it was. -/
def trail [DecidableEq α] : ℕ → Option α → List α → List α
  | 0, _, seen => seen
  | _ + 1, none, seen => seen
  | fuel + 1, some a, seen => if a ∈ seen then seen else trail fuel (next a) (seen ++ [a])

/-- Where the chain is after so many links. -/
def station (start : Option α) : ℕ → Option α
  | 0 => start
  | k + 1 => (station start k).bind next

variable {next} {start : Option α} {seen : List α} {a b : α}

/-- The items seen are the first stations of the chain, each seen once. -/
structure Walked (next : α → Option α) (start : Option α) (seen : List α) : Prop where
  nodup : seen.Nodup
  stations : ∀ i (hi : i < seen.length), station next start i = some seen[i]

theorem walked_nil : Walked next start [] := ⟨List.nodup_nil, fun _ hi => absurd hi (Nat.not_lt_zero _)⟩

theorem Walked.snoc (h : Walked next start seen) (ha : station next start seen.length = some a) (hfresh : a ∉ seen) :
    Walked next start (seen ++ [a]) := by
  refine ⟨?_, fun i hi => ?_⟩
  · rw [List.nodup_append]
    refine ⟨h.nodup, List.nodup_singleton a, fun x hx y hy hxy => ?_⟩
    rw [List.mem_singleton.mp hy] at hxy
    exact hfresh (hxy ▸ hx)
  · rw [List.length_append, List.length_singleton] at hi
    rcases Nat.lt_succ_iff_lt_or_eq.mp hi with hlt | heq
    · rw [List.getElem_append_left hlt]
      exact h.stations i hlt
    · subst heq
      simpa using ha

/-- A walk is over where the chain ends or returns. -/
def Over (next : α → Option α) (start : Option α) (seen : List α) : Prop :=
  ∀ a, station next start seen.length = some a → a ∈ seen

variable [DecidableEq α] [Fintype α]

theorem walked_trail (fuel : ℕ) (h : Walked next start seen) (hfuel : Fintype.card α < seen.length + fuel) :
    Walked next start (trail next fuel (station next start seen.length) seen) ∧
      Over next start (trail next fuel (station next start seen.length) seen) := by
  induction fuel generalizing seen with
  | zero => exact absurd (List.Nodup.length_le_card h.nodup) (by omega)
  | succ fuel ih =>
      cases hat : station next start seen.length with
      | none => exact ⟨h, fun a ha => by rw [trail, hat] at ha; cases ha⟩
      | some a =>
          rw [trail]
          by_cases hseen : a ∈ seen
          · rw [if_pos hseen]
            refine ⟨h, fun b hb => ?_⟩
            rw [hat] at hb
            cases hb
            exact hseen
          · rw [if_neg hseen]
            have hnext : next a = station next start (seen ++ [a]).length := by
              rw [List.length_append, List.length_singleton, station, hat]
              rfl
            rw [hnext]
            apply ih (h.snoc hat hseen)
            rw [List.length_append, List.length_singleton]
            omega

/-- The whole chain, with fuel for every item there is. -/
def whole (next : α → Option α) (start : Option α) : List α := trail next (Fintype.card α + 1) start []

theorem whole_walked : Walked next start (whole next start) ∧ Over next start (whole next start) :=
  walked_trail (Fintype.card α + 1) walked_nil (by simp)

theorem whole_nodup : (whole next start).Nodup := whole_walked.1.nodup

theorem station_of_getElem? {k : ℕ} (h : (whole next start)[k]? = some a) : station next start k = some a := by
  obtain ⟨hk, rfl⟩ := List.getElem?_eq_some_iff.mp h
  exact whole_walked.1.stations k hk

/-- Every station of the chain is on the walk, whether the chain ends or comes back. -/
theorem mem_whole : a ∈ whole next start ↔ ∃ k, station next start k = some a := by
  constructor
  · intro h
    obtain ⟨k, hk, rfl⟩ := List.getElem_of_mem h
    exact ⟨k, whole_walked.1.stations k hk⟩
  · rintro ⟨k, hk⟩
    obtain ⟨hwalked, hover⟩ : Walked next start (whole next start) ∧ Over next start (whole next start) := whole_walked
    have hat : ∀ i, i ≤ (whole next start).length → ∀ b, station next start i = some b → b ∈ whole next start := by
      intro i hi b hb
      rcases hi.lt_or_eq with hlt | heq
      · rw [hwalked.stations i hlt] at hb
        cases hb
        exact List.getElem_mem hlt
      · exact hover b (heq ▸ hb)
    induction k generalizing a with
    | zero => exact hat 0 (Nat.zero_le _) a hk
    | succ k ih =>
        obtain ⟨b, hb, hnext⟩ := Option.bind_eq_some_iff.mp hk
        obtain ⟨i, hi, rfl⟩ := List.getElem_of_mem (ih hb)
        apply hat (i + 1) hi
        rw [station, hwalked.stations i hi]
        exact hnext

theorem whole_head : (whole next start).head? = start := by
  cases hstart : start with
  | none => rfl
  | some a =>
      have hmem : a ∈ whole next (some a) := mem_whole.mpr ⟨0, rfl⟩
      have hpos := List.length_pos_of_mem hmem
      rw [List.head?_eq_getElem?, List.getElem?_eq_getElem hpos]
      exact (whole_walked.1.stations 0 hpos).symm

end MoomooMcp.Trail
