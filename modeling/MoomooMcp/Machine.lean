import Mathlib.Logic.Basic

namespace MoomooMcp.Machine

variable {σ α : Type}

/-- Execute a list of actions, or stop at the first one that is not enabled. -/
def run (next : σ → α → Option σ) : σ → List α → Option σ
  | s, [] => some s
  | s, a :: as => (next s a).bind (fun t => run next t as)

/-- A run all of whose transitions satisfy a condition. The unconditional runs
are those of the condition that always holds. -/
inductive Path (next : σ → α → Option σ) (ok : σ → α → σ → Prop) : σ → List α → σ → Prop
  | nil (s) : Path next ok s [] s
  | cons {s t u a as} (hstep : next s a = some t) (hok : ok s a t) (hrest : Path next ok t as u) :
      Path next ok s (a :: as) u

/-- The condition that every transition satisfies. -/
def free (_ : σ) (_ : α) (_ : σ) : Prop := True

variable {next : σ → α → Option σ} {ok ok' : σ → α → σ → Prop}

theorem run_append (s : σ) (as bs : List α) :
    run next s (as ++ bs) = (run next s as).bind (fun t => run next t bs) := by
  induction as generalizing s with
  | nil => rfl
  | cons a as ih =>
      simp only [List.cons_append, run]
      cases next s a with
      | none => rfl
      | some t => exact ih t

theorem path_of_run {s t : σ} {as : List α} (h : run next s as = some t)
    (hok : ∀ a ∈ as, ∀ s t, next s a = some t → ok s a t) : Path next ok s as t := by
  induction as generalizing s with
  | nil => cases h; exact .nil _
  | cons a as ih =>
      obtain ⟨u, hu, hr⟩ := Option.bind_eq_some_iff.mp h
      exact .cons hu (hok a List.mem_cons_self s u hu) (ih hr (fun b hb => hok b (List.mem_cons_of_mem a hb)))

theorem free_of_run {s t : σ} {as : List α} (h : run next s as = some t) : Path next free s as t :=
  path_of_run h (fun _ _ _ _ _ => trivial)

/-- The transitions that satisfy a decidable condition, as a machine of their own. -/
def restrict (next : σ → α → Option σ) (ok : σ → α → σ → Prop) [∀ s a t, Decidable (ok s a t)] (s : σ) (a : α) :
    Option σ :=
  (next s a).filter (fun t => ok s a t)

theorem path_of_restricted [∀ s a t, Decidable (ok s a t)] {s t : σ} {as : List α}
    (h : run (restrict next ok) s as = some t) : Path next ok s as t := by
  induction as generalizing s with
  | nil => cases h; exact .nil _
  | cons a as ih =>
      obtain ⟨u, hu, hr⟩ := Option.bind_eq_some_iff.mp h
      obtain ⟨hnext, hok⟩ := Option.filter_eq_some_iff.mp hu
      exact .cons hnext (of_decide_eq_true hok) (ih hr)

theorem Path.run_eq {s t : σ} {as : List α} (h : Path next ok s as t) : run next s as = some t := by
  induction h with
  | nil => rfl
  | cons hstep _ _ ih => simp only [run, hstep, Option.bind_some, ih]

theorem Path.append {s t u : σ} {as bs : List α} (h : Path next ok s as t) (h' : Path next ok t bs u) :
    Path next ok s (as ++ bs) u := by
  induction h with
  | nil => exact h'
  | cons hstep hok _ ih => exact .cons hstep hok (ih h')

theorem Path.snoc {s t u : σ} {a : α} {as : List α} (h : Path next ok s as t)
    (hstep : next t a = some u) (hok : ok t a u) : Path next ok s (as ++ [a]) u :=
  h.append (.cons hstep hok (.nil u))

theorem Path.unsnoc {s t : σ} {a : α} {as : List α} (h : Path next ok s (as ++ [a]) t) :
    ∃ u, Path next ok s as u ∧ next u a = some t ∧ ok u a t := by
  induction as generalizing s with
  | nil =>
      cases h with
      | cons hstep hok hrest =>
          cases hrest
          exact ⟨s, .nil s, hstep, hok⟩
  | cons b as ih =>
      cases h with
      | cons hstep hok hrest =>
          obtain ⟨u, hu, hlast⟩ := ih hrest
          exact ⟨u, .cons hstep hok hu, hlast⟩

/-- The invariant rule. Along a run that starts in an invariant state every
state is invariant, and each transition satisfies whatever the invariant
implies for one transition. -/
theorem Path.carry {P : σ → Prop} {s t : σ} {as : List α} (h : Path next ok s as t) (hs : P s)
    (hstep : ∀ s a t, P s → next s a = some t → ok s a t → P t ∧ ok' s a t) :
    P t ∧ Path next ok' s as t := by
  induction h with
  | nil s => exact ⟨hs, .nil s⟩
  | cons hnext hok _ ih =>
      obtain ⟨ht, hok'⟩ := hstep _ _ _ hs hnext hok
      obtain ⟨hu, hp⟩ := ih ht
      exact ⟨hu, .cons hnext hok' hp⟩

theorem Path.invariant {P : σ → Prop} {s t : σ} {as : List α} (h : Path next ok s as t) (hs : P s)
    (hstep : ∀ s a t, P s → next s a = some t → ok s a t → P t) : P t := by
  have hcarry : P t ∧ Path next ok s as t :=
    h.carry hs (fun s a t hp hn ho => ⟨hstep s a t hp hn ho, ho⟩)
  exact hcarry.1

theorem Path.mono {s t : σ} {as : List α} (h : Path next ok s as t)
    (hok : ∀ s a t, next s a = some t → ok s a t → ok' s a t) : Path next ok' s as t :=
  (h.carry (P := fun _ => True) trivial (fun s a t _ hn ho => ⟨trivial, hok s a t hn ho⟩)).2

/-- The states some conditional run from a start state leads to. -/
def Reaches (start : σ → Prop) (next : σ → α → Option σ) (ok : σ → α → σ → Prop) (s : σ) : Prop :=
  ∃ s₀ as, start s₀ ∧ Path next ok s₀ as s

variable {start : σ → Prop}

theorem Reaches.base {s : σ} (h : start s) : Reaches start next ok s := ⟨s, [], h, .nil s⟩

theorem Reaches.step {s t : σ} {a : α} (h : Reaches start next ok s) (hstep : next s a = some t)
    (hok : ok s a t) : Reaches start next ok t := by
  obtain ⟨s₀, as, hs, hp⟩ := h
  exact ⟨s₀, as ++ [a], hs, hp.snoc hstep hok⟩

theorem Reaches.path {s t : σ} {as : List α} (h : Reaches start next ok s) (hp : Path next ok s as t) :
    Reaches start next ok t := by
  obtain ⟨s₀, bs, hs, hb⟩ := h
  exact ⟨s₀, bs ++ as, hs, hb.append hp⟩

theorem Reaches.of_run {s t : σ} {as : List α} (h : start s) (hr : run next s as = some t)
    (hok : ∀ a ∈ as, ∀ s t, next s a = some t → ok s a t) : Reaches start next ok t :=
  ⟨s, as, h, path_of_run hr hok⟩

/-- Induction over the reachable states: the step may assume that its source
is itself reachable. -/
theorem Reaches.induction {P : σ → Prop} {s : σ} (h : Reaches start next ok s)
    (hstart : ∀ s, start s → P s)
    (hstep : ∀ s a t, Reaches start next ok s → P s → next s a = some t → ok s a t → P t) : P s := by
  obtain ⟨s₀, as, hs, hp⟩ := h
  have hinv : Reaches start next ok s ∧ P s :=
    hp.invariant (P := fun u => Reaches start next ok u ∧ P u) ⟨.base hs, hstart s₀ hs⟩
      (fun u a v hu hn ho => ⟨hu.1.step hn ho, hstep u a v hu.1 hu.2 hn ho⟩)
  exact hinv.2

end MoomooMcp.Machine
