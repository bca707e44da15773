import MoomooMcp.Numbers
import MoomooMcp.Rounding

namespace MoomooMcp.Decimal

variable {a b d x : Decimal} {prec : ℕ}

def exactMul (a b : Decimal) : Decimal := ⟨a.coefficient * b.coefficient, a.exponent + b.exponent⟩

/-- Multiplication in a context of a given precision, or no result where it overflows. -/
def mul (prec : ℕ) (a b : Decimal) : Option Decimal :=
  let r := (exactMul a b).round prec
  if r.coefficient = 0 ∨ r.adjusted ≤ maxExponent then some r else none

@[simp] theorem value_exactMul (a b : Decimal) : (exactMul a b).value = a.value * b.value := by
  simp only [value, exactMul, Int.cast_mul, zpow_add₀ (by norm_num : (10 : ℚ) ≠ 0)]
  ring

def length (d : Decimal) : ℕ := digits d.coefficient.natAbs

theorem length_pos (d : Decimal) : 0 < d.length := Nat.succ_pos _

theorem length_exactMul (a b : Decimal) : (exactMul a b).length ≤ a.length + b.length := by
  apply digits_le (Nat.add_pos_left a.length_pos _)
  rw [exactMul, Int.natAbs_mul, pow_add]
  exact Nat.mul_lt_mul_of_lt_of_lt (lt_pow_digits _) (lt_pow_digits _)

/-- A context that holds the digits of both factors multiplies exactly. -/
theorem mul_exact {k : ℤ} (hprec : a.length + b.length ≤ prec) (h : |a.value * b.value| < 10 ^ k)
    (hk : k ≤ maxExponent) : mul prec a b = some (exactMul a b) := by
  have hround : (exactMul a b).round prec = exactMul a b := round_of_fits ((length_exactMul a b).trans hprec)
  simp only [mul, hround]
  apply if_pos
  by_cases hc : (exactMul a b).coefficient = 0
  · exact .inl hc
  · right
    have hpos : 0 < |(exactMul a b).value| := abs_pos.mpr (mt value_eq_zero.mp hc)
    have hlog : Int.log 10 |(exactMul a b).value| < k := by
      apply (Int.lt_zpow_iff_log_lt (by norm_num) hpos).mp
      rw [value_exactMul]
      exact_mod_cast h
    rw [adjusted_eq_log hc]
    omega

/-- The magnitudes that a float, other than zero, is printed with. -/
def FloatSized (q : ℚ) : Prop := 10 ^ (-324 : ℤ) ≤ |q| ∧ |q| ≤ 10 ^ (309 : ℤ)

theorem nearestDouble_ge {q : ℚ} (h : nearestDouble q ≠ 0) : 2 ^ (-1074 : ℤ) ≤ |nearestDouble q| := by
  rw [nearestDouble, abs_mul, abs_of_pos (a := (2 : ℚ) ^ lastPlace q) (by positivity)]
  have hc : roundHalfEven (q / 2 ^ lastPlace q) ≠ 0 := fun hz => h (by rw [nearestDouble, hz, Int.cast_zero, zero_mul])
  have hone : (1 : ℚ) ≤ |(roundHalfEven (q / 2 ^ lastPlace q) : ℚ)| := by exact_mod_cast Int.one_le_abs hc
  calc (2 : ℚ) ^ (-1074 : ℤ) ≤ 2 ^ lastPlace q := zpow_le_zpow_right₀ (by norm_num) (le_max_right _ _)
    _ = 1 * 2 ^ lastPlace q := (one_mul _).symm
    _ ≤ _ := mul_le_mul_of_nonneg_right hone (by positivity)

theorem le_natAbs_of_between {q : ℚ} {c : ℤ} {m : ℕ} (hl : ⌊q⌋ ≤ c) (hu : c ≤ ⌈q⌉) (h : m ≤ |q|) : m ≤ c.natAbs := by
  rcases le_abs.mp h with hq | hq
  · have hfloor : (m : ℤ) ≤ ⌊q⌋ := Int.le_floor.mpr (by push_cast; exact hq)
    omega
  · have hceil : ⌈q⌉ ≤ -(m : ℤ) := Int.ceil_le.mpr (by push_cast; linarith)
    omega

/-- A number next to `y` of those with `n` digits behind the leading one. -/
structure Neighbour (y : ℚ) (n : ℕ) (d : Decimal) : Prop where
  exponent : d.exponent = Int.log 10 |y| - n
  floor_le : ⌊y / 10 ^ d.exponent⌋ ≤ d.coefficient
  le_ceil : d.coefficient ≤ ⌈y / 10 ^ d.exponent⌉

theorem significant_neighbour (y : ℚ) (n : ℕ) : Neighbour y n (significant y (n + 1)) := by
  obtain ⟨hl, hu⟩ := roundHalfEven_bounds (y / 10 ^ (significant y (n + 1)).exponent)
  exact ⟨by simp [significant], hl, hu⟩

theorem outward_neighbour (y : ℚ) (n : ℕ) : Neighbour y n (outward y (n + 1)) := by
  have hle := Int.floor_le_ceil (y / 10 ^ (outward y (n + 1)).exponent)
  refine ⟨by simp [outward], ?_, ?_⟩
  · change ⌊y / 10 ^ (outward y (n + 1)).exponent⌋ ≤ if y < 0 then _ else _
    split
    · exact le_refl _
    · exact hle
  · change (if y < 0 then _ else _) ≤ ⌈y / 10 ^ (outward y (n + 1)).exponent⌉
    split
    · exact hle
    · exact le_refl _

/-- Rounding to some digits keeps a number between the powers of ten around it. -/
theorem Neighbour.bounds {y : ℚ} {n : ℕ} (h : Neighbour y n d) (hy : y ≠ 0) :
    10 ^ Int.log 10 |y| ≤ |d.value| ∧ |d.value| ≤ 10 ^ (Int.log 10 |y| + 1) := by
  have hten : (0 : ℚ) < 10 ^ d.exponent := by positivity
  have hlow : (10 : ℚ) ^ Int.log 10 |y| = (10 ^ n : ℕ) * 10 ^ d.exponent := by
    push_cast
    rw [← zpow_natCast, ← zpow_add₀ (by norm_num), h.exponent]
    congr 1
    omega
  have hhigh : (10 : ℚ) ^ (Int.log 10 |y| + 1) = (10 ^ (n + 1) : ℕ) * 10 ^ d.exponent := by
    push_cast
    rw [← zpow_natCast, ← zpow_add₀ (by norm_num), h.exponent]
    congr 1
    push_cast
    omega
  have hpos : 0 < |y| := abs_pos.mpr hy
  have hge : ((10 ^ n : ℕ) : ℚ) ≤ |y / 10 ^ d.exponent| := by
    rw [abs_div, abs_of_pos hten, le_div_iff₀ hten, ← hlow]
    exact_mod_cast Int.zpow_log_le_self (by norm_num : 1 < 10) hpos
  have hle : |y / 10 ^ d.exponent| ≤ ((10 ^ (n + 1) : ℕ) : ℚ) := by
    rw [abs_div, abs_of_pos hten, div_le_iff₀ hten, ← hhigh]
    exact_mod_cast (Int.lt_zpow_succ_log_self (by norm_num : 1 < 10) |y|).le
  rw [abs_value, hlow, hhigh]
  constructor
  · exact mul_le_mul_of_nonneg_right (by exact_mod_cast le_natAbs_of_between h.floor_le h.le_ceil hge) hten.le
  · exact mul_le_mul_of_nonneg_right (by exact_mod_cast natAbs_le_of_between h.floor_le h.le_ceil hle) hten.le

theorem Neighbour.value_zero {n : ℕ} (h : Neighbour 0 n d) : d.value = 0 := by
  have hl := h.floor_le
  have hu := h.le_ceil
  rw [zero_div, Int.floor_zero] at hl
  rw [zero_div, Int.ceil_zero] at hu
  exact value_eq_zero.mpr (le_antisymm hu hl)

/-- Some digits of a double, that lead back to it or are enough to. -/
theorem shortest_cases (y : ℚ) : (∃ n, Neighbour y n (shortest y) ∧ nearestDouble (shortest y).value = y) ∨
    shortest y = significant y 17 := by
  unfold shortest
  cases hf : ((List.range 16).flatMap (fun n => [significant y (n + 1), outward y (n + 1)])).find?
      (fun d => nearestDouble d.value = y) with
  | none => exact .inr rfl
  | some d =>
      obtain ⟨n, -, hn⟩ := List.mem_flatMap.mp (List.mem_of_find?_eq_some hf)
      have hback : nearestDouble d.value = y := by simpa using List.find?_some hf
      refine .inl ⟨n, ?_, hback⟩
      rcases List.mem_cons.mp hn with rfl | hn
      · exact significant_neighbour y n
      · rw [List.mem_singleton.mp hn]
        exact outward_neighbour y n

theorem shortest_neighbour (y : ℚ) : ∃ n, Neighbour y n (shortest y) := by
  rcases shortest_cases y with ⟨n, h, -⟩ | h
  · exact ⟨n, h⟩
  · exact ⟨16, h ▸ significant_neighbour y 16⟩

theorem two_pow_le {m n : ℕ} (h : 2 ^ m ≤ 10 ^ n) : (2 : ℚ) ^ (m : ℤ) ≤ 10 ^ (n : ℤ) := by exact_mod_cast h

theorem smallest_double : (10 : ℚ) ^ (-324 : ℤ) ≤ 2 ^ (-1074 : ℤ) := by
  rw [zpow_neg, zpow_neg]
  exact inv_anti₀ (by positivity) (two_pow_le (m := 1074) (n := 324) (by decide +kernel))

theorem largestDouble_lt : largestDouble < 10 ^ (309 : ℤ) :=
  calc largestDouble < 2 ^ 53 * 2 ^ 971 := mul_lt_mul_of_pos_right (by norm_num) (by positivity)
    _ = 2 ^ ((1024 : ℕ) : ℤ) := by rw [← pow_add, zpow_natCast]
    _ ≤ 10 ^ (309 : ℤ) := two_pow_le (n := 309) (by decide +kernel)

/-- What a float prints as is neither smaller nor larger than floats are. -/
theorem toFloat_sized (h : d.toFloat = .finite x) (hx : x.value ≠ 0) : FloatSized x.value := by
  unfold toFloat at h
  dsimp only at h
  split at h
  · cases h
  · next hlarge =>
      have hspelled : (shortest (nearestDouble d.value)).spelled = x := Numeral.finite.inj h
      obtain ⟨n, hn⟩ := shortest_neighbour (nearestDouble d.value)
      have hvalue : x.value = (shortest (nearestDouble d.value)).value := by
        rw [← hspelled, spelled_value]
      have hy : nearestDouble d.value ≠ 0 := by
        intro hy
        rw [hy] at hn
        rw [hvalue, hy] at hx
        exact hx hn.value_zero
      have hpos : 0 < |nearestDouble d.value| := abs_pos.mpr hy
      obtain ⟨hge, hle⟩ := hn.bounds hy
      have hlow : -324 ≤ Int.log 10 |nearestDouble d.value| := by
        apply (Int.zpow_le_iff_le_log (by norm_num) hpos).mp
        exact_mod_cast smallest_double.trans (nearestDouble_ge hy)
      have hhigh : Int.log 10 |nearestDouble d.value| < 309 := by
        apply (Int.lt_zpow_iff_log_lt (by norm_num) hpos).mp
        exact_mod_cast (not_lt.mp hlarge).trans_lt largestDouble_lt
      rw [hvalue]
      exact ⟨(zpow_le_zpow_right₀ (by norm_num) hlow).trans hge,
        hle.trans (zpow_le_zpow_right₀ (by norm_num) (by omega))⟩

end MoomooMcp.Decimal
