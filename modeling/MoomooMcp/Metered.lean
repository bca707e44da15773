import Mathlib.Data.Multiset.Filter
import MoomooMcp.Checks

namespace MoomooMcp

/-- A computation that may fail, with the calls that it made on its way. -/
@[ext] structure Metered (κ ε α : Type) where
  calls : List κ
  result : Except ε α

namespace Metered

variable {κ ε α β : Type}

/-- A computation that makes no call. -/
def lift (y : Except ε α) : Metered κ ε α := ⟨[], y⟩

/-- One call, whatever comes of it. -/
def call (k : κ) (answer : Except ε α) : Metered κ ε α := ⟨[k], answer⟩

/-- What begins with the call `k` where `asks` holds. -/
def asking (asks : Bool) (k : κ) (y : Except ε α) : Metered κ ε α := ⟨if asks then [k] else [], y⟩

instance : Monad (Metered κ ε) where
  pure a := ⟨[], .ok a⟩
  bind x f :=
    match x.result with
    | .ok a => ⟨x.calls ++ (f a).calls, (f a).result⟩
    | .error e => ⟨x.calls, .error e⟩

instance : MonadLift (Except ε) (Metered κ ε) := ⟨lift⟩

/-- The calls of `y` are made whatever came of `x`, whose result stays. -/
def andFinally (x : Metered κ ε α) (y : Metered κ ε β) : Metered κ ε α := ⟨x.calls ++ y.calls, x.result⟩

variable {x : Metered κ ε α} {f : α → Metered κ ε β} {y : Except ε α} {k : κ} {asks : Bool} {a : α} {e : ε}

@[simp] theorem result_pure : (pure a : Metered κ ε α).result = pure a := rfl

@[simp] theorem calls_pure : (pure a : Metered κ ε α).calls = [] := rfl

@[simp] theorem result_lift : (liftM y : Metered κ ε α).result = y := rfl

@[simp] theorem calls_lift : (liftM y : Metered κ ε α).calls = [] := rfl

@[simp] theorem result_call : (call k y).result = y := rfl

@[simp] theorem result_asking : (asking asks k y).result = y := rfl

@[simp] theorem result_andFinally {z : Metered κ ε β} : (x.andFinally z).result = x.result := rfl

/-- Without its calls a computation is one that may fail. -/
@[simp] theorem result_bind : (x >>= f).result = x.result >>= fun a => (f a).result := by
  obtain ⟨calls, _ | a⟩ := x <;> rfl

theorem bind_of_ok (h : x.result = .ok a) : (x >>= f).calls = x.calls ++ (f a).calls := by
  obtain ⟨calls, result⟩ := x
  subst h
  rfl

theorem bind_of_error (h : x.result = .error e) : (x >>= f).calls = x.calls := by
  obtain ⟨calls, result⟩ := x
  subst h
  rfl

/-- The calls are all among `m`, and all of `m` where the computation succeeds. -/
structure Costs (m : Multiset κ) (x : Metered κ ε α) : Prop where
  within : (x.calls : Multiset κ) ≤ m
  exact : ∀ a, x.result = .ok a → (x.calls : Multiset κ) = m

namespace Costs

variable {m n : Multiset κ}

theorem pure (a : α) : Costs 0 (Pure.pure a : Metered κ ε α) := ⟨le_rfl, fun _ _ => rfl⟩

theorem lift (y : Except ε α) : Costs 0 (liftM y : Metered κ ε α) := ⟨le_rfl, fun _ _ => rfl⟩

theorem call (k : κ) (y : Except ε α) : Costs {k} (call k y) := ⟨le_rfl, fun _ _ => rfl⟩

theorem asking (h : ∀ a, y = .ok a → asks = true) : Costs {k} (asking asks k y) := by
  refine ⟨?_, fun a hy => ?_⟩
  · cases asks
    · exact Multiset.zero_le _
    · exact le_rfl
  · rw [Metered.asking, if_pos (h a hy)]
    rfl

/-- What is asked or not costs just that, whatever comes of it. -/
theorem asked : Costs (if asks then {k} else 0) (Metered.asking asks k y) := by
  cases asks
  · exact ⟨le_rfl, fun _ _ => rfl⟩
  · exact ⟨le_rfl, fun _ _ => rfl⟩

theorem bind (hx : Costs m x) (hf : ∀ a, x.result = .ok a → Costs n (f a)) : Costs (m + n) (x >>= f) := by
  cases hresult : x.result with
  | error e =>
      refine ⟨?_, fun b hb => ?_⟩
      · rw [bind_of_error hresult]
        exact hx.within.trans (Multiset.le_add_right m n)
      · rw [result_bind, hresult] at hb
        cases hb
  | ok a =>
      have ha := hf a hresult
      rw [← hx.exact a hresult]
      refine ⟨?_, fun b hb => ?_⟩
      · rw [bind_of_ok hresult, ← Multiset.coe_add]
        exact Multiset.add_le_add_left ha.within
      · rw [result_bind, hresult] at hb
        rw [bind_of_ok hresult, ← Multiset.coe_add, ha.exact b hb]

/-- A check costs nothing, and what follows it can rely on it. -/
theorem after {f : α → Metered κ ε β} (hf : ∀ a, y = .ok a → Costs n (f a)) : Costs n (liftM y >>= f) := by
  simpa using bind (lift y) hf

/-- What follows `x` costs nothing. -/
theorem before (hx : Costs m x) (hf : ∀ a, x.result = .ok a → Costs 0 (f a)) : Costs m (x >>= f) := by
  simpa using bind hx hf

theorem ite {p : Prop} [Decidable p] {z : Metered κ ε α} (hx : p → Costs m x) (hz : ¬p → Costs m z) :
    Costs m (if p then x else z) := by
  by_cases hp : p
  · simpa only [if_pos hp] using hx hp
  · simpa only [if_neg hp] using hz hp

theorem andFinally {z : Metered κ ε β} (hx : Costs m x) (hz : (z.calls : Multiset κ) = n) :
    Costs (m + n) (x.andFinally z) := by
  refine ⟨?_, fun a ha => ?_⟩
  · rw [Metered.andFinally, ← Multiset.coe_add, hz]
    exact Multiset.add_le_add_right hx.within
  · rw [Metered.andFinally, ← Multiset.coe_add, hz, hx.exact a ha]

end Costs

end Metered

end MoomooMcp
