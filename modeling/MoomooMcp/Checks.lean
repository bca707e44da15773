import Mathlib.Data.List.Forall2

namespace MoomooMcp.Checks

variable {ε α β γ δ : Type}

theorem bind_ok {x : Except ε α} {f : α → Except ε β} {b : β} :
    x >>= f = .ok b ↔ ∃ a, x = .ok a ∧ f a = .ok b := by
  cases x with
  | error e => exact ⟨nofun, fun ⟨a, ha, _⟩ => nomatch ha⟩
  | ok a => exact ⟨fun h => ⟨a, rfl, h⟩, fun ⟨a', ha, h⟩ => by cases ha; exact h⟩

theorem ok_bind {x : Except ε α} {a : α} (h : x = .ok a) (f : α → Except ε β) : x >>= f = f a := by
  rw [h]
  rfl

theorem map_ok {x : Except ε α} {f : α → β} {b : β} : x.map f = .ok b ↔ ∃ a, x = .ok a ∧ f a = b := by
  cases x with
  | error e => exact ⟨nofun, fun ⟨a, ha, _⟩ => nomatch ha⟩
  | ok a => exact ⟨fun h => ⟨a, rfl, Except.ok.inj h⟩, fun ⟨a', ha, h⟩ => by cases ha; exact congrArg _ h⟩

theorem bind_pure_map (x : Except ε α) (f : α → β) : (do return f (← x)) = x.map f := bind_pure_comp f x

theorem exists_map_ok {x : Except ε α} {f : α → β} : (∃ b, x.map f = .ok b) ↔ ∃ a, x = .ok a := by
  simp only [map_ok]
  exact ⟨fun ⟨_, a, ha, _⟩ => ⟨a, ha⟩, fun ⟨a, ha⟩ => ⟨f a, a, ha, rfl⟩⟩

theorem ok_of_isSome {x : Except ε α} (h : x.toOption.isSome = true) : ∃ a, x = .ok a := by
  cases x with
  | error e => cases h
  | ok a => exact ⟨a, rfl⟩

theorem mapM_ok {f : α → Except ε β} {xs : List α} {ys : List β} :
    xs.mapM f = .ok ys ↔ List.Forall₂ (fun x y => f x = .ok y) xs ys := by
  induction xs generalizing ys with
  | nil =>
      rw [List.mapM_nil, List.forall₂_nil_left_iff]
      exact ⟨fun h => (Except.ok.inj h).symm, fun h => congrArg _ h.symm⟩
  | cons x xs ih =>
      rw [List.mapM_cons, bind_ok]
      constructor
      · rintro ⟨y, hy, hrest⟩
        obtain ⟨zs, hzs, h⟩ := bind_ok.mp hrest
        cases h
        exact .cons hy (ih.mp hzs)
      · intro h
        cases h with
        | cons hy hrest => exact ⟨_, hy, bind_ok.mpr ⟨_, ih.mpr hrest, rfl⟩⟩

/-- Every element passes. -/
theorem exists_mapM_ok {f : α → Except ε β} {xs : List α} : (∃ ys, xs.mapM f = .ok ys) ↔ ∀ x ∈ xs, ∃ y, f x = .ok y := by
  induction xs with
  | nil => exact iff_of_true ⟨[], rfl⟩ (fun _ hx => absurd hx List.not_mem_nil)
  | cons x xs ih =>
      rw [List.forall_mem_cons, ← ih]
      constructor
      · rintro ⟨zs, hzs⟩
        cases mapM_ok.mp hzs with
        | cons hy hrest => exact ⟨⟨_, hy⟩, _, mapM_ok.mpr hrest⟩
      · rintro ⟨⟨y, hy⟩, ys, hys⟩
        exact ⟨y :: ys, mapM_ok.mpr (.cons hy (mapM_ok.mp hys))⟩

theorem forall₂_mem {R : α → β → Prop} {xs : List α} {ys : List β} (h : List.Forall₂ R xs ys) :
    ∀ x ∈ xs, ∃ y ∈ ys, R x y := by
  induction h with
  | nil => exact nofun
  | cons hxy _ ih =>
      rw [List.forall_mem_cons]
      refine ⟨⟨_, List.mem_cons_self, hxy⟩, fun x hx => ?_⟩
      obtain ⟨y, hy, hr⟩ := ih x hx
      exact ⟨y, List.mem_cons_of_mem _ hy, hr⟩

theorem forall₂_imp_mem {R S : α → β → Prop} {xs : List α} {ys : List β} (h : List.Forall₂ R xs ys)
    (himp : ∀ x ∈ xs, ∀ y, R x y → S x y) : List.Forall₂ S xs ys :=
  ((List.forall₂_and_left xs ys).mpr ⟨himp, h⟩).imp (fun _ y hxy => hxy.1 y hxy.2)

/-- Both computations fail, or both succeed and their results are related. -/
def Similar (R : α → β → Prop) : Except ε α → Except ε β → Prop
  | .ok a, .ok b => R a b
  | .error _, .error _ => True
  | _, _ => False

variable {R : α → β → Prop} {S : γ → δ → Prop} {x : Except ε α} {y : Except ε β}

theorem Similar.bind {f : α → Except ε γ} {g : β → Except ε δ} (h : Similar R x y)
    (hfg : ∀ a b, x = .ok a → y = .ok b → R a b → Similar S (f a) (g b)) : Similar S (x >>= f) (y >>= g) := by
  cases x with
  | error e =>
      cases y with
      | error e' => trivial
      | ok b => exact h.elim
  | ok a =>
      cases y with
      | error e' => exact h.elim
      | ok b => exact hfg a b rfl rfl h

theorem Similar.map {f : α → γ} {g : β → δ} (h : Similar R x y) (hfg : ∀ a b, R a b → S (f a) (g b)) :
    Similar S (x.map f) (y.map g) := by
  cases x with
  | error e =>
      cases y with
      | error e' => trivial
      | ok b => exact h.elim
  | ok a =>
      cases y with
      | error e' => exact h.elim
      | ok b => exact hfg a b h

theorem Similar.of_ok (h : (∃ a, x = .ok a) ↔ ∃ b, y = .ok b) (hR : ∀ a b, x = .ok a → y = .ok b → R a b) :
    Similar R x y := by
  cases x with
  | error e =>
      cases y with
      | error e' => trivial
      | ok b => exact nomatch (h.mpr ⟨b, rfl⟩)
  | ok a =>
      cases y with
      | error e' => exact nomatch (h.mp ⟨a, rfl⟩)
      | ok b => exact hR a b rfl rfl

theorem Similar.refl {R : α → α → Prop} (hR : ∀ a, R a a) (x : Except ε α) : Similar R x x := by
  cases x with
  | error e => trivial
  | ok a => exact hR a

/-- A computation that both begin with. -/
theorem Similar.same {x : Except ε α} {f : α → Except ε γ} {g : α → Except ε δ}
    (h : ∀ a, x = .ok a → Similar S (f a) (g a)) : Similar S (x >>= f) (x >>= g) := by
  cases hx : x with
  | error e => trivial
  | ok a => exact h a hx

theorem Similar.of_eq {R : α → α → Prop} (hR : ∀ a, R a a) {x y : Except ε α} (h : x = y) : Similar R x y :=
  h ▸ Similar.refl hR x

/-- Two checks are similar when they pass together. -/
theorem Similar.checks {x y : Except ε Unit} (h : x = .ok () ↔ y = .ok ()) : Similar (fun _ _ => True) x y := by
  cases x with
  | error e =>
      cases y with
      | error e' => trivial
      | ok b => exact nomatch h.mpr rfl
  | ok a =>
      cases y with
      | error e' => exact nomatch h.mp rfl
      | ok b => trivial

end MoomooMcp.Checks
