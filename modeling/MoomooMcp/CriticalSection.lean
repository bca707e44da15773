import Mathlib.Logic.Function.Basic

namespace MoomooMcp.CriticalSection

variable {Tid Ph : Type}

/-- What happens to the holder of a lock when one thread moves from one program
point to another, for a lock whose critical section is a set of program points.
Entering the section waits until the lock is free, leaving it frees the lock. -/
def claim (inside : Ph → Bool) (holder : Option Tid) (t : Tid) (old new : Ph) : Option (Option Tid) :=
  if inside old = inside new then some holder
  else if inside new = false then some none
  else match holder with
    | none => some (some t)
    | some _ => none

/-- The lock is held by exactly the thread inside the section. -/
def Held (inside : Ph → Bool) (holder : Option Tid) (threads : Tid → Ph) : Prop :=
  ∀ t, inside (threads t) = true ↔ holder = some t

theorem claim_cases {inside : Ph → Bool} {holder holder' : Option Tid} {t : Tid} {old new : Ph}
    (h : claim inside holder t old new = some holder') :
    (inside new = inside old ∧ holder' = holder) ∨
    (inside old = false ∧ inside new = true ∧ holder = none ∧ holder' = some t) ∨
    (inside old = true ∧ inside new = false ∧ holder' = none) := by
  unfold claim at h
  cases ho : inside old <;> cases hn : inside new <;> simp only [ho, hn] at h
  · exact .inl ⟨rfl, (Option.some.inj h).symm⟩
  · cases hh : holder with
    | none => rw [hh] at h; exact .inr (.inl ⟨rfl, rfl, rfl, (Option.some.inj h).symm⟩)
    | some v => rw [hh] at h; cases h
  · exact .inr (.inr ⟨rfl, rfl, (Option.some.inj h).symm⟩)
  · exact .inl ⟨rfl, (Option.some.inj h).symm⟩

theorem Held.holder_eq {inside : Ph → Bool} {holder : Option Tid} {threads : Tid → Ph} {t : Tid}
    (h : Held inside holder threads) (ht : inside (threads t) = true) : holder = some t :=
  (h t).mp ht

/-- Mutual exclusion. -/
theorem Held.unique {inside : Ph → Bool} {holder : Option Tid} {threads : Tid → Ph} {t u : Tid}
    (h : Held inside holder threads) (ht : inside (threads t) = true) (hu : inside (threads u) = true) :
    t = u :=
  Option.some.inj ((h.holder_eq ht).symm.trans (h.holder_eq hu))

theorem held_outside {inside : Ph → Bool} {threads : Tid → Ph} (h : ∀ t, inside (threads t) = false) :
    Held inside none threads :=
  fun t => by simp [h t]

theorem Held.claim [DecidableEq Tid] {inside : Ph → Bool} {holder holder' : Option Tid}
    {threads : Tid → Ph} {t : Tid} {new : Ph} (h : Held inside holder threads)
    (hc : claim inside holder t (threads t) new = some holder') :
    Held inside holder' (Function.update threads t new) := by
  intro u
  have ht := h t
  have hother := h u
  rcases claim_cases hc with ⟨hn, rfl⟩ | ⟨ho, hn, rfl, rfl⟩ | ⟨ho, hn, rfl⟩ <;> by_cases hu : u = t
  · subst u
    rw [Function.update_self, hn]
    exact ht
  · rw [Function.update_of_ne hu]
    exact hother
  · subst u
    simp [hn]
  · rw [Function.update_of_ne hu, hother]
    simp [Ne.symm hu]
  · subst u
    simp [hn]
  · rw [Function.update_of_ne hu, hother, h.holder_eq ho]
    simp [Ne.symm hu]

/-- A thread that enters the section finds nobody inside. -/
theorem Held.enter {inside : Ph → Bool} {holder holder' : Option Tid} {threads : Tid → Ph} {t : Tid}
    {new : Ph} (h : Held inside holder threads) (hold : inside (threads t) = false)
    (hnew : inside new = true) (hc : CriticalSection.claim inside holder t (threads t) new = some holder')
    (u : Tid) : inside (threads u) = false := by
  rcases claim_cases hc with ⟨hn, _⟩ | ⟨_, _, hfree, _⟩ | ⟨ho, _⟩
  · rw [hold, hnew] at hn; cases hn
  · have hu := h u
    rw [hfree] at hu
    simpa using hu
  · rw [hold] at ho; cases ho

/-- How the program point of the holder changes when one thread moves. -/
inductive Turn (inside : Ph → Bool) : Option Ph → Ph → Ph → Option Ph → Prop
  | stays {old new} (hold : inside old = true) (hnew : inside new = true) : Turn inside (some old) old new (some new)
  | leaves {old new} (hold : inside old = true) (hnew : inside new = false) : Turn inside (some old) old new none
  | enters {old new} (hold : inside old = false) (hnew : inside new = true) : Turn inside none old new (some new)
  | apart {old new within} (hold : inside old = false) (hnew : inside new = false) : Turn inside within old new within

theorem Held.turn [DecidableEq Tid] {inside : Ph → Bool} {holder holder' : Option Tid} {threads : Tid → Ph} {t : Tid}
    {new : Ph} (h : Held inside holder threads)
    (hc : CriticalSection.claim inside holder t (threads t) new = some holder') :
    Turn inside (holder.map threads) (threads t) new (holder'.map (Function.update threads t new)) := by
  rcases claim_cases hc with ⟨hn, rfl⟩ | ⟨ho, hn, rfl, rfl⟩ | ⟨ho, hn, rfl⟩
  · cases ho : inside (threads t) with
    | true =>
        rw [h.holder_eq ho, Option.map_some, Option.map_some, Function.update_self]
        exact .stays ho (hn.trans ho)
    | false =>
        have hmap : holder'.map (Function.update threads t new) = holder'.map threads := by
          apply Option.map_congr
          intro u hu
          rw [Function.update_of_ne]
          rintro rfl
          rw [(h u).mpr hu] at ho
          cases ho
        rw [hmap]
        exact .apart ho (hn.trans ho)
  · rw [Option.map_none, Option.map_some, Function.update_self]
    exact .enters ho hn
  · rw [h.holder_eq ho, Option.map_some, Option.map_none]
    exact .leaves ho hn

variable {inside : Ph → Bool} {within within' : Option Ph} {old new : Ph}

theorem Turn.inner (h : Turn inside within old new within') (hold : inside old = true) :
    within = some old ∧ within' = if inside new then some new else none := by
  cases h with
  | stays _ hnew => exact ⟨rfl, by rw [if_pos hnew]⟩
  | leaves _ hnew => exact ⟨rfl, by rw [if_neg (by simp [hnew])]⟩
  | enters ho _ | apart ho _ => rw [hold] at ho; cases ho

theorem Turn.enter (h : Turn inside within old new within') (hold : inside old = false) (hnew : inside new = true) :
    within = none ∧ within' = some new := by
  cases h with
  | enters _ _ => exact ⟨rfl, rfl⟩
  | stays ho _ | leaves ho _ => rw [hold] at ho; cases ho
  | apart _ hn => rw [hnew] at hn; cases hn

theorem Turn.outer (h : Turn inside within old new within') (hold : inside old = false) (hnew : inside new = false) :
    within' = within := by
  cases h with
  | apart _ _ => rfl
  | stays ho _ | leaves ho _ => rw [hold] at ho; cases ho
  | enters _ hn => rw [hnew] at hn; cases hn

end MoomooMcp.CriticalSection
