import Mathlib.Data.Int.Log
import MoomooMcp.Decimal

namespace MoomooMcp.Decimal

theorem value_eq_zero {d : Decimal} : d.value = 0 ↔ d.coefficient = 0 := by
  rw [value, mul_eq_zero, Int.cast_eq_zero]
  exact or_iff_left (by positivity)

theorem pow_le_of_digits {n : ℕ} (h : n ≠ 0) : 10 ^ (digits n - 1) ≤ n := by
  rw [digits, Nat.add_sub_cancel]
  exact Nat.pow_log_le_self 10 h

/-- The exponent of the leading digit depends on the number alone. -/
theorem adjusted_eq_log {d : Decimal} (h : d.coefficient ≠ 0) : d.adjusted = Int.log 10 |d.value| := by
  have hc : d.coefficient.natAbs ≠ 0 := Int.natAbs_ne_zero.mpr h
  have hdigits : 1 ≤ digits d.coefficient.natAbs := Nat.le_add_left 1 _
  have hpos : 0 < |d.value| := abs_pos.mpr (mt value_eq_zero.mp h)
  have hten : (0 : ℚ) < 10 ^ d.exponent := by positivity
  refine le_antisymm ?_ ?_
  · refine (Int.zpow_le_iff_le_log (by norm_num) hpos).mp ?_
    have hle : ((10 : ℚ) ^ ((digits d.coefficient.natAbs - 1 : ℕ) : ℤ)) ≤ d.coefficient.natAbs := by
      rw [zpow_natCast]
      exact_mod_cast pow_le_of_digits hc
    have hexp : d.adjusted = ((digits d.coefficient.natAbs - 1 : ℕ) : ℤ) + d.exponent := by
      unfold adjusted
      omega
    rw [abs_value, hexp, Nat.cast_ofNat, zpow_add₀ (by norm_num)]
    exact mul_le_mul_of_nonneg_right hle hten.le
  · refine Int.lt_add_one_iff.mp ((Int.lt_zpow_iff_log_lt (by norm_num) hpos).mp ?_)
    have hlt : (d.coefficient.natAbs : ℚ) < 10 ^ ((digits d.coefficient.natAbs : ℕ) : ℤ) := by
      rw [zpow_natCast]
      exact_mod_cast lt_pow_digits d.coefficient.natAbs
    have hexp : d.adjusted + 1 = (digits d.coefficient.natAbs : ℤ) + d.exponent := by
      unfold adjusted
      omega
    rw [abs_value, hexp, Nat.cast_ofNat, zpow_add₀ (by norm_num)]
    exact mul_lt_mul_of_pos_right hlt hten

theorem roundHalfEven_intCast (n : ℤ) : roundHalfEven n = n := by
  rw [roundHalfEven, Int.floor_intCast, sub_self, if_pos (by norm_num)]

theorem roundHalfEven_bounds (q : ℚ) : ⌊q⌋ ≤ roundHalfEven q ∧ roundHalfEven q ≤ ⌈q⌉ := by
  have hfloor : ⌊q⌋ ≤ ⌈q⌉ := Int.floor_le_ceil q
  by_cases hq : q = ⌊q⌋
  · have heq : roundHalfEven q = ⌊q⌋ := by
      conv_lhs => rw [hq]
      exact roundHalfEven_intCast ⌊q⌋
    exact ⟨heq.ge, heq.le.trans hfloor⟩
  · have hlt : ⌊q⌋ + 1 ≤ ⌈q⌉ := Int.lt_ceil.mpr (lt_of_le_of_ne (Int.floor_le q) (Ne.symm hq))
    unfold roundHalfEven
    split
    · exact ⟨le_refl _, hfloor⟩
    · split
      · exact ⟨by omega, hlt⟩
      · split
        · exact ⟨le_refl _, hfloor⟩
        · exact ⟨by omega, hlt⟩

/-- An integer next to a number is no larger than a bound of the number. -/
theorem natAbs_le_of_between {q : ℚ} {c : ℤ} {m : ℕ} (hl : ⌊q⌋ ≤ c) (hu : c ≤ ⌈q⌉) (h : |q| ≤ m) : c.natAbs ≤ m := by
  obtain ⟨hneg, hpos⟩ := abs_le.mp h
  have hlow : -(m : ℤ) ≤ ⌊q⌋ := Int.le_floor.mpr (by push_cast; exact hneg)
  have hhigh : ⌈q⌉ ≤ (m : ℤ) := Int.ceil_le.mpr (by push_cast; exact hpos)
  omega

theorem abs_roundHalfEven_le {q : ℚ} {m : ℕ} (h : |q| ≤ m) : (roundHalfEven q).natAbs ≤ m :=
  natAbs_le_of_between (roundHalfEven_bounds q).1 (roundHalfEven_bounds q).2 h

/-- The place of the last of a number of significant digits. -/
def lastDigit (prec : ℕ) (q : ℚ) : ℤ := Int.log 10 |q| + 1 - prec

/-- The nearest number of so many digits, of two equally near ones the even one. -/
def roundTo (prec : ℕ) (q : ℚ) : ℚ :=
  if q = 0 then 0 else roundHalfEven (q / 10 ^ lastDigit prec q) * 10 ^ lastDigit prec q

theorem digits_le_round {prec : ℕ} {d : Decimal} (h : prec < digits d.coefficient.natAbs) :
    (roundHalfEven (d.coefficient / 10 ^ (digits d.coefficient.natAbs - prec))).natAbs ≤ 10 ^ prec := by
  refine abs_roundHalfEven_le ?_
  have hlt : (d.coefficient.natAbs : ℚ) ≤ 10 ^ digits d.coefficient.natAbs := by
    exact_mod_cast (lt_pow_digits d.coefficient.natAbs).le
  have hten : (0 : ℚ) < 10 ^ (digits d.coefficient.natAbs - prec) := by positivity
  rw [abs_div, abs_of_pos hten, div_le_iff₀ hten, ← Int.cast_abs, ← Nat.cast_natAbs, Nat.cast_pow, Nat.cast_ofNat,
    ← pow_add, show prec + (digits d.coefficient.natAbs - prec) = digits d.coefficient.natAbs by omega]
  exact hlt

/-- The value of a rounded number that is too long: its coefficient is rounded, and
a carry out of the leading digit leaves a power of ten. -/
theorem value_round_long {prec : ℕ} (hprec : 0 < prec) {d : Decimal} (h : prec < digits d.coefficient.natAbs) :
    (d.round prec).value = roundHalfEven (d.coefficient / 10 ^ (digits d.coefficient.natAbs - prec)) *
      10 ^ (d.exponent + ((digits d.coefficient.natAbs : ℤ) - prec)) := by
  have hle := digits_le_round h
  unfold round
  dsimp only
  rw [if_neg (not_le.mpr h)]
  generalize roundHalfEven (d.coefficient / 10 ^ (digits d.coefficient.natAbs - prec)) = c at hle ⊢
  split
  · rfl
  · next hcarry =>
      have hge : 10 ^ prec ≤ c.natAbs := not_lt.mp (mt (digits_le hprec) hcarry)
      have hdvd : (10 : ℤ) ∣ c := by
        rw [← Int.dvd_natAbs, le_antisymm hle hge]
        exact_mod_cast dvd_pow_self 10 hprec.ne'
      obtain ⟨m, rfl⟩ := hdvd
      rw [value, Int.mul_ediv_cancel_left m (by norm_num), zpow_add₀ (by norm_num), zpow_one]
      push_cast
      ring

/-- Rounding depends on the number alone, not on how it is written. -/
theorem value_round {prec : ℕ} (hprec : 0 < prec) (d : Decimal) : (d.round prec).value = roundTo prec d.value := by
  by_cases hc : d.coefficient = 0
  · have hfits : digits d.coefficient.natAbs ≤ prec := by
      rw [hc, Int.natAbs_zero, digits, Nat.log_zero_right]
      omega
    rw [round_of_fits hfits, value_eq_zero.mpr hc, roundTo, if_pos rfl]
  · have hten : ∀ e : ℤ, (10 : ℚ) ^ e ≠ 0 := fun e => by positivity
    have hlast : lastDigit prec d.value = d.exponent + (digits d.coefficient.natAbs - prec) := by
      rw [lastDigit, ← adjusted_eq_log hc, adjusted]
      omega
    rw [roundTo, if_neg (mt value_eq_zero.mp hc), hlast]
    by_cases hfits : digits d.coefficient.natAbs ≤ prec
    · have hint : d.value / 10 ^ (d.exponent + ((digits d.coefficient.natAbs : ℤ) - prec)) =
          ((d.coefficient * 10 ^ (prec - digits d.coefficient.natAbs) : ℤ) : ℚ) := by
        rw [value, div_eq_iff (hten _)]
        push_cast
        rw [mul_assoc, ← zpow_natCast, ← zpow_add₀ (by norm_num)]
        congr 2
        omega
      rw [round_of_fits hfits, hint, roundHalfEven_intCast, ← hint, div_mul_cancel₀ _ (hten _)]
    · have hlong : prec < digits d.coefficient.natAbs := not_le.mp hfits
      have hquot : d.value / 10 ^ (d.exponent + ((digits d.coefficient.natAbs : ℤ) - prec)) =
          d.coefficient / 10 ^ (digits d.coefficient.natAbs - prec) := by
        rw [value, zpow_add₀ (by norm_num), mul_comm (10 ^ d.exponent), mul_div_mul_right _ _ (hten _), ← zpow_natCast,
          Nat.cast_sub hlong.le]
      rw [value_round_long hprec hlong, hquot]

theorem abs_roundTo_le (prec : ℕ) {q : ℚ} (hq : q ≠ 0) : |roundTo prec q| ≤ 10 ^ (Int.log 10 |q| + 1) := by
  rw [roundTo, if_neg hq]
  have hten : (0 : ℚ) < 10 ^ lastDigit prec q := by positivity
  have hplace : (10 : ℚ) ^ (Int.log 10 |q| + 1) = 10 ^ prec * 10 ^ lastDigit prec q := by
    rw [← zpow_natCast, ← zpow_add₀ (by norm_num), lastDigit]
    congr 1
    omega
  have hlog : |q| ≤ 10 ^ prec * 10 ^ lastDigit prec q := by
    rw [← hplace]
    exact_mod_cast (Int.lt_zpow_succ_log_self (by norm_num : 1 < 10) |q|).le
  have hquot : |q / 10 ^ lastDigit prec q| ≤ (10 ^ prec : ℕ) := by
    rw [abs_div, abs_of_pos hten, div_le_iff₀ hten]
    exact_mod_cast hlog
  have hround : |(roundHalfEven (q / 10 ^ lastDigit prec q) : ℚ)| ≤ 10 ^ prec := by
    rw [← Int.cast_abs, ← Nat.cast_natAbs]
    exact_mod_cast abs_roundHalfEven_le hquot
  rw [hplace, abs_mul, abs_of_pos hten]
  exact mul_le_mul_of_nonneg_right hround hten.le

theorem value_add {prec : ℕ} (hprec : 0 < prec) {a b r : Decimal} (h : add prec a b = some r) :
    r.value = roundTo prec (a.value + b.value) := by
  unfold add at h
  dsimp only at h
  split at h
  · cases h
    rw [value_round hprec, value_exactAdd]
  · cases h

/-- A sum that is small enough does not overflow. -/
theorem add_isSome {prec : ℕ} (hprec : 0 < prec) {a b : Decimal} {k : ℤ} (h : |a.value + b.value| < 10 ^ k)
    (hk : k ≤ maxExponent) : ∃ r, add prec a b = some r := by
  refine ⟨(exactAdd a b).round prec, if_pos ?_⟩
  by_cases hc : ((exactAdd a b).round prec).coefficient = 0
  · exact .inl hc
  · right
    have hv : ((exactAdd a b).round prec).value = roundTo prec (a.value + b.value) := by
      rw [value_round hprec, value_exactAdd]
    have hr : roundTo prec (a.value + b.value) ≠ 0 := hv ▸ mt value_eq_zero.mp hc
    have hq : a.value + b.value ≠ 0 := by
      intro hq
      rw [roundTo, if_pos hq] at hr
      exact hr rfl
    have hlog : Int.log 10 |a.value + b.value| < k :=
      (Int.lt_zpow_iff_log_lt (by norm_num) (abs_pos.mpr hq)).mp (by exact_mod_cast h)
    rw [adjusted_eq_log hc, hv]
    refine le_trans ?_ hk
    refine Int.le_of_lt_add_one ((Int.lt_zpow_iff_log_lt (by norm_num) (abs_pos.mpr hr)).mp ?_)
    refine (abs_roundTo_le prec hq).trans_lt ?_
    exact_mod_cast zpow_lt_zpow_right₀ (by norm_num : (1 : ℚ) < 10) (by omega)

/-- Whether a sum overflows depends on the numbers alone, as the sum does. -/
theorem add_congr {prec : ℕ} (hprec : 0 < prec) {a b a' b' : Decimal} (ha : a.value = a'.value)
    (hb : b.value = b'.value) : (add prec a b).map value = (add prec a' b').map value := by
  have hv : ((exactAdd a b).round prec).value = ((exactAdd a' b').round prec).value := by
    rw [value_round hprec, value_round hprec, value_exactAdd, value_exactAdd, ha, hb]
  have hzero : ((exactAdd a b).round prec).coefficient = 0 ↔ ((exactAdd a' b').round prec).coefficient = 0 := by
    rw [← value_eq_zero, ← value_eq_zero, hv]
  have hfits : (((exactAdd a b).round prec).coefficient = 0 ∨ ((exactAdd a b).round prec).adjusted ≤ maxExponent) ↔
      (((exactAdd a' b').round prec).coefficient = 0 ∨ ((exactAdd a' b').round prec).adjusted ≤ maxExponent) := by
    by_cases hc : ((exactAdd a b).round prec).coefficient = 0
    · exact iff_of_true (.inl hc) (.inl (hzero.mp hc))
    · rw [adjusted_eq_log hc, adjusted_eq_log (mt hzero.mpr hc), hv, hzero]
  unfold add
  dsimp only
  by_cases h : ((exactAdd a b).round prec).coefficient = 0 ∨ ((exactAdd a b).round prec).adjusted ≤ maxExponent
  · rw [if_pos h, if_pos (hfits.mp h), Option.map_some, Option.map_some, hv]
  · rw [if_neg h, if_neg (mt hfits.mpr h)]

/-- The numbers that rounding leaves alone are those with few enough digits. -/
theorem roundTo_eq_self {prec : ℕ} (hprec : 0 < prec) {q : ℚ} :
    roundTo prec q = q ↔ ∃ d : Decimal, d.value = q ∧ digits d.coefficient.natAbs ≤ prec := by
  constructor
  · intro h
    by_cases hq : q = 0
    · refine ⟨⟨0, 0⟩, ?_, digits_le hprec (by positivity)⟩
      rw [hq, value_eq_zero]
    · rw [roundTo, if_neg hq] at h
      generalize roundHalfEven (q / 10 ^ lastDigit prec q) = c at h
      have hten : (0 : ℚ) < 10 ^ lastDigit prec q := by positivity
      have hlt : |q| < 10 ^ (lastDigit prec q + prec) := by
        have hlog := Int.lt_zpow_succ_log_self (by norm_num : 1 < 10) |q|
        rw [lastDigit, sub_add_cancel]
        exact_mod_cast hlog
      generalize lastDigit prec q = place at h hten hlt
      have hc : |(c : ℚ)| < 10 ^ prec := by
        rw [← h, abs_mul, abs_of_pos hten, add_comm, zpow_add₀ (by norm_num), zpow_natCast] at hlt
        exact lt_of_mul_lt_mul_right hlt hten.le
      refine ⟨⟨c, place⟩, h, digits_le hprec ?_⟩
      rw [← Int.cast_abs, ← Nat.cast_natAbs] at hc
      exact_mod_cast hc
  · rintro ⟨d, rfl, hfits⟩
    rw [← value_round hprec, round_of_fits hfits]

end MoomooMcp.Decimal
