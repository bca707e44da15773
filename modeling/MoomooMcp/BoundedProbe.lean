import Mathlib.Data.List.Count
import MoomooMcp.Machine

namespace MoomooMcp.BoundedProbe

open Machine

/-- A probe runner: what each worker's future holds, in the order the workers were
started, with nothing while the worker runs; and the future that is tracked. -/
structure Probe (ρ : Type) where
  futures : List (Option ρ) := []
  inflight : Option ℕ := none

variable {ρ : Type}

namespace Probe

def done (p : Probe ρ) (i : ℕ) : Prop := ∃ r, p.futures[i]? = some (some r)

instance (p : Probe ρ) (i : ℕ) : Decidable (p.done i) :=
  match h : p.futures[i]? with
  | some (some r) => .isTrue ⟨r, h⟩
  | some none => .isFalse (fun ⟨_, hr⟩ => by rw [h] at hr; cases hr)
  | none => .isFalse (fun ⟨_, hr⟩ => by rw [h] at hr; cases hr)

/-- A worker of its own for the probe, tracked from now on. -/
def launch (p : Probe ρ) : ℕ × Probe ρ :=
  (p.futures.length, ⟨p.futures ++ [none], some p.futures.length⟩)

def submit (p : Probe ρ) : ℕ × Probe ρ :=
  match p.inflight with
  | some i => if p.done i then p.launch else (i, p)
  | none => p.launch

/-- The worker of a future returns or raises. -/
def finish (p : Probe ρ) (i : ℕ) (r : ρ) : Probe ρ := { p with futures := p.futures.set i (some r) }

def release (p : Probe ρ) (i : ℕ) : Probe ρ := if p.inflight = some i then { p with inflight := none } else p

def inFlight (p : Probe ρ) : Bool :=
  match p.inflight with
  | some i => !decide (p.done i)
  | none => false

def close (p : Probe ρ) : Probe ρ := { p with inflight := none }

end Probe

/-- `release` is the second half of `collect`, after the future answered. -/
inductive Action (ρ : Type)
  | submit
  | finish (i : ℕ) (r : ρ)
  | release (i : ℕ)
  | close

def Action.closes : Action ρ → Bool
  | .close => true
  | _ => false

namespace Probe

def step (p : Probe ρ) : Action ρ → Option (Probe ρ)
  | .submit => some p.submit.2
  | .finish i r => if p.futures[i]?.isSome ∧ ¬ p.done i then some (p.finish i r) else none
  | .release i => if p.done i then some (p.release i) else none
  | .close => some p.close

/-- The workers that have not ended. -/
def working (p : Probe ρ) : ℕ := p.futures.countP Option.isNone

variable {p q : Probe ρ}

/-- What a step does, by name. -/
inductive Move (p : Probe ρ) : Action ρ → Probe ρ → Prop
  | joined {i} (h : p.inflight = some i) (hrunning : ¬ p.done i) : Move p .submit p
  | launched (h : ∀ i ∈ p.inflight, p.done i) : Move p .submit ⟨p.futures ++ [none], some p.futures.length⟩
  | finished {i r} (h : p.futures[i]? = some none) : Move p (.finish i r) (p.finish i r)
  | released {i} (hdone : p.done i) (h : p.inflight = some i) : Move p (.release i) p.close
  | kept {i} (hdone : p.done i) (h : p.inflight ≠ some i) : Move p (.release i) p
  | closed : Move p .close p.close

theorem step_move {a : Action ρ} (h : p.step a = some q) : Move p a q := by
  cases a with
  | submit =>
      cases h
      rw [submit]
      split
      · next i hi =>
          split
          · next hdone => exact .launched (fun j hj => by rw [hi] at hj; cases hj; exact hdone)
          · next hrunning => exact .joined hi hrunning
      · next hnone => exact .launched (fun j hj => by rw [hnone] at hj; cases hj)
  | finish i r =>
      obtain ⟨⟨hsome, hrunning⟩, h⟩ := Option.ite_none_right_eq_some.mp h
      cases h
      obtain ⟨content, hcontent⟩ := Option.isSome_iff_exists.mp hsome
      cases content with
      | none => exact .finished hcontent
      | some r' => exact absurd ⟨r', hcontent⟩ hrunning
  | release i =>
      obtain ⟨hdone, h⟩ := Option.ite_none_right_eq_some.mp h
      cases h
      by_cases hi : p.inflight = some i
      · rw [release, if_pos hi]
        exact .released hdone hi
      · rw [release, if_neg hi]
        exact .kept hdone hi
  | close => cases h; exact .closed

/-- The tracked future exists. -/
def Tracked (p : Probe ρ) : Prop := ∀ i ∈ p.inflight, i < p.futures.length

/-- What a future holds is never taken back. -/
def Keeps (p q : Probe ρ) : Prop := ∀ (i : ℕ) (r : ρ), p.futures[i]? = some (some r) → q.futures[i]? = some (some r)

theorem Move.tracked {a : Action ρ} (h : Move p a q) (hp : p.Tracked) : q.Tracked := by
  cases h with
  | joined | kept => exact hp
  | launched => intro i hi; cases hi; simp
  | finished => intro i hi; simpa [finish] using hp i hi
  | released | closed => intro i hi; cases hi

theorem Move.keeps {a : Action ρ} (h : Move p a q) : p.Keeps q := by
  intro i r hr
  cases h with
  | joined | kept | released | closed => exact hr
  | launched => exact List.getElem?_append_left (List.getElem?_eq_some_iff.mp hr).1 ▸ hr
  | @finished j _ hj =>
      by_cases hij : j = i
      · rw [hij, hr] at hj; cases hj
      · simpa [finish, List.getElem?_set_ne hij] using hr

/-- The tracked worker, counted while it runs. -/
def own (p : Probe ρ) : ℕ := if p.inFlight then 1 else 0

theorem own_of_done (h : ∀ i ∈ p.inflight, p.done i) : p.own = 0 := by
  cases hi : p.inflight with
  | none => simp [own, inFlight, hi]
  | some i => simp [own, inFlight, hi, h i hi]

theorem own_of_running {i : ℕ} (hi : p.inflight = some i) (h : ¬ p.done i) : p.own = 1 := by
  simp [own, inFlight, hi, h]

theorem own_le (p : Probe ρ) : p.own ≤ 1 := by
  rw [own]
  split <;> omega

theorem not_done_of_none {i : ℕ} (h : p.futures[i]? = some none) : ¬ p.done i := fun ⟨_, hr⟩ => by
  rw [h] at hr
  cases hr

theorem finish_done {i j : ℕ} {r : ρ} (h : p.futures[i]? = some none) : (p.finish i r).done j ↔ j = i ∨ p.done j := by
  have hi : i < p.futures.length := (List.getElem?_eq_some_iff.mp h).1
  by_cases hj : i = j
  · subst hj
    simp [done, finish, hi]
  · simp [done, finish, List.getElem?_set_ne hj, Ne.symm hj]

theorem finish_working {i : ℕ} {r : ρ} (h : p.futures[i]? = some none) :
    (p.finish i r).working + 1 = p.working := by
  obtain ⟨hi, hnone⟩ := List.getElem?_eq_some_iff.mp h
  have hcount := List.countP_set (p := Option.isNone) (a := some r) hi
  have hpos : 0 < p.futures.countP Option.isNone :=
    List.countP_pos_iff.mpr ⟨none, hnone ▸ List.getElem_mem hi, rfl⟩
  rw [hnone] at hcount
  simp only [Option.isNone_none, Option.isNone_some, if_true, Bool.false_eq_true, if_false] at hcount
  rw [working, finish, working]
  dsimp only
  omega

/-- Only a closing leaves a running worker untracked, and it leaves one at most. -/
theorem Move.working {a : Action ρ} (h : Move p a q) :
    q.working + p.own ≤ p.working + q.own + (if a.closes then 1 else 0) := by
  have hbound := own_le p
  cases h with
  | joined | kept => simp [Action.closes, Nat.add_comm]
  | launched hdone =>
      have hown : Probe.own ⟨p.futures ++ [none], some p.futures.length⟩ = 1 :=
        own_of_running rfl (not_done_of_none (by simp))
      simp [Probe.working, own_of_done hdone, hown]
  | @finished i r hi =>
      have hcount := finish_working (r := r) hi
      simp only [Action.closes, Bool.false_eq_true, if_false]
      omega
  | @released i hdone hi =>
      have hown : p.own = 0 := own_of_done (fun j hj => by rw [hi] at hj; cases hj; exact hdone)
      simp only [hown, close, Probe.working, Action.closes, Bool.false_eq_true, if_false]
      omega
  | closed => simp only [close, Probe.working, Action.closes, if_true]; omega

theorem inFlight_iff : p.inFlight = true ↔ ∃ i, p.inflight = some i ∧ ¬ p.done i := by
  rw [inFlight]
  split
  · next i hi => simp [hi]
  · next hnone => simp [hnone]

theorem submit_joined {i : ℕ} (hi : p.inflight = some i) (h : ¬ p.done i) : p.submit = (i, p) := by
  simp only [submit, hi, if_neg h]

theorem submit_launched (h : p.inFlight = false) : p.submit = p.launch := by
  rw [submit]
  split
  · next i hi =>
      have hdone : p.done i := by
        by_contra hrunning
        exact Bool.false_ne_true (h.symm.trans (inFlight_iff.mpr ⟨i, hi, hrunning⟩))
      rw [if_pos hdone]
  · rfl

theorem launch_working (p : Probe ρ) : p.launch.2.working = p.working + 1 := by
  simp [launch, working]

theorem path_working {as : List (Action ρ)} (h : Path step free p as q) :
    q.working + p.own ≤ p.working + q.own + as.countP Action.closes := by
  induction h with
  | nil => exact Nat.le_refl _
  | cons hstep _ _ ih =>
      have hone := (step_move hstep).working
      rw [List.countP_cons]
      omega

theorem path_keeps {as : List (Action ρ)} (h : Path step free p as q) : p.Keeps q := by
  induction h with
  | nil => exact fun _ _ hr => hr
  | cons hstep _ _ ih => exact fun i r hr => ih i r ((step_move hstep).keeps i r hr)

theorem path_tracked {as : List (Action ρ)} (h : Path step free p as q) (hp : p.Tracked) : q.Tracked :=
  h.invariant hp (fun _ _ _ hs hstep _ => (step_move hstep).tracked hs)

end Probe
end MoomooMcp.BoundedProbe
