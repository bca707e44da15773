import Mathlib.Algebra.BigOperators.Group.List.Basic
import Mathlib.Algebra.Order.Field.Power
import Mathlib.Algebra.Order.Floor.Ring
import Mathlib.Data.Nat.Log
import Mathlib.Data.Rat.Floor
import Mathlib.Tactic.FieldSimp
import Mathlib.Tactic.Positivity
import Mathlib.Tactic.Ring

namespace MoomooMcp

/-- A finite decimal number: an integer coefficient and a power of ten. -/
structure Decimal where
  coefficient : ℤ
  exponent : ℤ
  deriving DecidableEq, Repr

namespace Decimal

def value (d : Decimal) : ℚ := d.coefficient * 10 ^ d.exponent

/-- How many digits a natural number is written with. -/
def digits (n : ℕ) : ℕ := Nat.log 10 n + 1

/-- The exponent of the leading digit. -/
def adjusted (d : Decimal) : ℤ := d.exponent + digits d.coefficient.natAbs - 1

/-- The coefficient of the same number at a smaller exponent. -/
def rescale (d : Decimal) (e : ℤ) : ℤ := d.coefficient * 10 ^ (d.exponent - e).toNat

def exactAdd (a b : Decimal) : Decimal where
  coefficient := a.rescale (min a.exponent b.exponent) + b.rescale (min a.exponent b.exponent)
  exponent := min a.exponent b.exponent

def roundHalfEven (q : ℚ) : ℤ :=
  if q - ⌊q⌋ < 1 / 2 then ⌊q⌋
  else if 1 / 2 < q - ⌊q⌋ then ⌊q⌋ + 1
  else if ⌊q⌋ % 2 = 0 then ⌊q⌋
  else ⌊q⌋ + 1

/-- Rounding to a number of digits. A carry out of the leading digit costs one
more digit of the fraction. -/
def round (prec : ℕ) (d : Decimal) : Decimal :=
  let n := digits d.coefficient.natAbs
  if n ≤ prec then d
  else
    let c := roundHalfEven (d.coefficient / 10 ^ (n - prec))
    if digits c.natAbs ≤ prec then ⟨c, d.exponent + (n - prec)⟩
    else ⟨c / 10, d.exponent + (n - prec) + 1⟩

/-- The largest exponent of the arithmetic context. -/
def maxExponent : ℤ := 999999

/-- Addition in a context of a given precision, or no result where it overflows. -/
def add (prec : ℕ) (a b : Decimal) : Option Decimal :=
  let r := (exactAdd a b).round prec
  if r.coefficient = 0 ∨ r.adjusted ≤ maxExponent then some r else none

def integerDigits (ds : List Decimal) : ℕ := ds.foldr (fun d n => max (d.adjusted + 1).toNat n) 1

def fractionalDigits (ds : List Decimal) : ℕ := ds.foldr (fun d n => max (-d.exponent).toNat n) 0

theorem value_at {d : Decimal} {e : ℤ} (h : e ≤ d.exponent) : (d.rescale e : ℚ) * 10 ^ e = d.value := by
  have he : ((d.exponent - e).toNat : ℤ) = d.exponent - e := Int.toNat_of_nonneg (by omega)
  rw [rescale, value, Int.cast_mul, mul_assoc, Int.cast_pow, Int.cast_ofNat, ← zpow_natCast, he,
    ← zpow_add₀ (by norm_num)]
  congr 2
  omega

@[simp] theorem value_exactAdd (a b : Decimal) : (exactAdd a b).value = a.value + b.value := by
  rw [← value_at (min_le_left a.exponent b.exponent), ← value_at (min_le_right a.exponent b.exponent),
    ← add_mul, ← Int.cast_add]
  rfl

theorem lt_pow_digits (n : ℕ) : n < 10 ^ digits n := Nat.lt_pow_succ_log_self (by norm_num) n

theorem digits_le {n k : ℕ} (hk : 0 < k) (h : n < 10 ^ k) : digits n ≤ k := by
  unfold digits
  by_cases hn : n = 0
  · subst n
    rw [Nat.log_zero_right]
    omega
  · exact Nat.log_lt_of_lt_pow hn h

theorem abs_value (d : Decimal) : |d.value| = d.coefficient.natAbs * 10 ^ d.exponent := by
  rw [value, abs_mul, abs_of_pos (a := (10 : ℚ) ^ d.exponent) (by positivity), Nat.cast_natAbs, Int.cast_abs]

/-- The absolute value is what follows the sign. -/
theorem value_signed (d : Decimal) :
    d.value = if d.coefficient < 0 then -((d.coefficient.natAbs : ℚ) * 10 ^ d.exponent)
      else (d.coefficient.natAbs : ℚ) * 10 ^ d.exponent := by
  split
  · next hneg => rw [value, Nat.cast_natAbs, abs_of_neg hneg, Int.cast_neg, neg_mul, neg_neg]
  · next hneg => rw [value, Nat.cast_natAbs, abs_of_nonneg (not_lt.mp hneg)]

theorem value_neg (d : Decimal) : ({ d with coefficient := -d.coefficient } : Decimal).value = -d.value := by
  rw [value, value, Int.cast_neg, neg_mul]

theorem abs_value_lt {d : Decimal} {n : ℕ} (h : d.adjusted + 1 ≤ n) : |d.value| < 10 ^ n := by
  have hc : (d.coefficient.natAbs : ℚ) < 10 ^ digits d.coefficient.natAbs := by
    exact_mod_cast lt_pow_digits d.coefficient.natAbs
  have he : (digits d.coefficient.natAbs : ℤ) + d.exponent ≤ n := by
    unfold adjusted at h
    omega
  calc |d.value| = d.coefficient.natAbs * 10 ^ d.exponent := d.abs_value
    _ < 10 ^ digits d.coefficient.natAbs * 10 ^ d.exponent := mul_lt_mul_of_pos_right hc (by positivity)
    _ = 10 ^ ((digits d.coefficient.natAbs : ℤ) + d.exponent) := by
        rw [zpow_add₀ (by norm_num), zpow_natCast]
    _ ≤ 10 ^ (n : ℤ) := zpow_le_zpow_right₀ (by norm_num) he
    _ = 10 ^ n := zpow_natCast _ _

theorem round_of_fits {prec : ℕ} {d : Decimal} (h : digits d.coefficient.natAbs ≤ prec) : d.round prec = d :=
  if_pos h

/-- The coefficient of a number that is not too large and not too fine is short. -/
theorem digits_bound {d : Decimal} {i f : ℕ} (hpos : 0 < i + f) (habs : |d.value| < 10 ^ i) (he : -f ≤ d.exponent) :
    digits d.coefficient.natAbs ≤ i + f := by
  refine digits_le hpos ?_
  rw [abs_value] at habs
  have hf : (10 : ℚ) ^ (-f : ℤ) ≤ 10 ^ d.exponent := zpow_le_zpow_right₀ (by norm_num) he
  have hlt : (d.coefficient.natAbs : ℚ) * 10 ^ (-f : ℤ) < 10 ^ i :=
    (mul_le_mul_of_nonneg_left hf (by positivity)).trans_lt habs
  rw [zpow_neg, zpow_natCast, ← div_eq_mul_inv, div_lt_iff₀ (by positivity), ← pow_add] at hlt
  exact_mod_cast hlt

theorem exponent_le_fractionalDigits {ds : List Decimal} {d : Decimal} (h : d ∈ ds) :
    -(fractionalDigits ds : ℤ) ≤ d.exponent := by
  induction ds with
  | nil => cases h
  | cons d' ds ih =>
      have hc : fractionalDigits (d' :: ds) = max (-d'.exponent).toNat (fractionalDigits ds) := rfl
      rw [hc]
      cases List.mem_cons.mp h with
      | inl he => subst d'; omega
      | inr hm => have := ih hm; omega

theorem adjusted_le_integerDigits {ds : List Decimal} {d : Decimal} (h : d ∈ ds) :
    d.adjusted + 1 ≤ integerDigits ds := by
  induction ds with
  | nil => cases h
  | cons d' ds ih =>
      have hc : integerDigits (d' :: ds) = max (d'.adjusted + 1).toNat (integerDigits ds) := rfl
      rw [hc]
      cases List.mem_cons.mp h with
      | inl he => subst d'; omega
      | inr hm => have := ih hm; omega

end Decimal

end MoomooMcp
