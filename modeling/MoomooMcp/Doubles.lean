import MoomooMcp.Magnitude

namespace MoomooMcp.Decimal

variable {x y q : ℚ} {d e : Decimal} {m n : ℤ}

theorem roundHalfEven_of_near (h : |q - m| < 1 / 2) : roundHalfEven q = m := by
  obtain ⟨hlow, hhigh⟩ := abs_lt.mp h
  by_cases hq : (m : ℚ) ≤ q
  · have hfloor : ⌊q⌋ = m := Int.floor_eq_iff.mpr ⟨hq, by linarith⟩
    rw [roundHalfEven, hfloor, if_pos hhigh]
  · have hfloor : ⌊q⌋ = m - 1 := Int.floor_eq_iff.mpr (by push_cast; constructor <;> linarith)
    have habove : 1 / 2 < q - ((m - 1 : ℤ) : ℚ) := by
      push_cast
      linarith
    rw [roundHalfEven, hfloor, if_neg (by linarith), if_pos habove, sub_add_cancel]

/-- Rounding moves a number by half of a place at most. -/
theorem abs_roundHalfEven_sub_le (q : ℚ) : |roundHalfEven q - q| ≤ 1 / 2 := by
  have hlow := Int.floor_le q
  have hhigh := Int.lt_floor_add_one q
  rw [abs_le]
  unfold roundHalfEven
  split_ifs with hbelow habove <;> push_cast <;> constructor <;> linarith

/-- A number on the grid of the doubles of its size. -/
def IsDouble (x : ℚ) : Prop := ∃ m : ℤ, x = m * 2 ^ lastPlace x

theorem two_zpow_pos (n : ℤ) : (0 : ℚ) < 2 ^ n := zpow_pos (by norm_num) n

/-- Whole places of one size are whole places of any smaller size. -/
theorem rescale_two (h : n ≤ m) (c : ℤ) : (c : ℚ) * 2 ^ m = ((c * 2 ^ (m - n).toNat : ℤ) : ℚ) * 2 ^ n := by
  have he : ((m - n).toNat : ℤ) = m - n := Int.toNat_of_nonneg (by omega)
  push_cast
  rw [mul_assoc, ← zpow_natCast, he, ← zpow_add₀ (by norm_num)]
  congr 2
  omega

theorem zpow_log_le (hx : x ≠ 0) : (2 : ℚ) ^ Int.log 2 |x| ≤ |x| := by
  exact_mod_cast Int.zpow_log_le_self (b := 2) (by norm_num) (abs_pos.mpr hx)

theorem lt_zpow_log (x : ℚ) : |x| < 2 ^ (Int.log 2 |x| + 1) := by
  exact_mod_cast Int.lt_zpow_succ_log_self (b := 2) (by norm_num) |x|

theorem le_log (hx : x ≠ 0) (h : 2 ^ n ≤ |x|) : n ≤ Int.log 2 |x| :=
  (Int.zpow_le_iff_le_log (by norm_num) (abs_pos.mpr hx)).mp (by exact_mod_cast h)

theorem log_lt (hx : x ≠ 0) (h : |x| < 2 ^ n) : Int.log 2 |x| < n :=
  (Int.lt_zpow_iff_log_lt (by norm_num) (abs_pos.mpr hx)).mp (by exact_mod_cast h)

/-- Rounding to a place keeps a number within a power of two that is no smaller. -/
theorem abs_nearestDouble_le (hn : lastPlace q ≤ n) (h : |q| ≤ 2 ^ n) : |nearestDouble q| ≤ 2 ^ n := by
  have hplace := two_zpow_pos (lastPlace q)
  have hpow : (2 : ℚ) ^ n = (2 ^ (n - lastPlace q).toNat : ℕ) * 2 ^ lastPlace q := by
    have := rescale_two hn 1
    push_cast at this ⊢
    rw [← one_mul ((2 : ℚ) ^ n), this, one_mul]
  rw [nearestDouble, abs_mul, abs_of_pos hplace, hpow]
  refine mul_le_mul_of_nonneg_right ?_ hplace.le
  rw [← Int.cast_abs, ← Nat.cast_natAbs]
  refine Nat.cast_le.mpr (abs_roundHalfEven_le ?_)
  rw [abs_div, abs_of_pos hplace, div_le_iff₀ hplace, ← hpow]
  exact h

/-- The result of rounding is a double, also where it reaches the next power of two. -/
theorem nearestDouble_isDouble (q : ℚ) : IsDouble (nearestDouble q) := by
  by_cases hzero : nearestDouble q = 0
  · exact ⟨0, by rw [hzero, Int.cast_zero, zero_mul]⟩
  by_cases hplace : lastPlace (nearestDouble q) ≤ lastPlace q
  · exact ⟨_, rescale_two hplace (roundHalfEven (q / 2 ^ lastPlace q))⟩
  have hwider : Int.log 2 |q| < Int.log 2 |nearestDouble q| ∧ lastPlace q < Int.log 2 |nearestDouble q| - 52 ∧
      lastPlace (nearestDouble q) = Int.log 2 |nearestDouble q| - 52 := by
    unfold lastPlace at hplace ⊢
    omega
  obtain ⟨hlog, hlarge, hlast⟩ := hwider
  have hbound : |nearestDouble q| ≤ 2 ^ max (Int.log 2 |q| + 1) (lastPlace q) := by
    refine abs_nearestDouble_le (le_max_right _ _) ((lt_zpow_log q).le.trans ?_)
    exact zpow_le_zpow_right₀ (by norm_num) (le_max_left _ _)
  have hreach : Int.log 2 |nearestDouble q| ≤ max (Int.log 2 |q| + 1) (lastPlace q) := by
    refine (zpow_le_zpow_iff_right₀ (by norm_num : (1 : ℚ) < 2)).mp ((zpow_log_le hzero).trans hbound)
  have hpower : |nearestDouble q| = 2 ^ Int.log 2 |nearestDouble q| := by
    refine le_antisymm ?_ (zpow_log_le hzero)
    rw [show Int.log 2 |nearestDouble q| = max (Int.log 2 |q| + 1) (lastPlace q) by omega]
    exact hbound
  have hwhole := rescale_two (show lastPlace (nearestDouble q) ≤ Int.log 2 |nearestDouble q| by omega)
  rcases abs_choice (nearestDouble q) with hsign | hsign
  · refine ⟨_, (hsign.symm.trans hpower).trans (Eq.trans ?_ (hwhole 1))⟩
    rw [Int.cast_one, one_mul]
  · refine ⟨_, (neg_eq_iff_eq_neg.mp (hsign.symm.trans hpower)).trans (Eq.trans ?_ (hwhole (-1)))⟩
    rw [Int.cast_neg, Int.cast_one, neg_one_mul]

/-- A double other than zero is at least one place away from zero. -/
theorem IsDouble.place_le (hx : IsDouble x) (hne : x ≠ 0) : lastPlace x ≤ Int.log 2 |x| := by
  obtain ⟨m, hm⟩ := hx
  refine le_log hne ?_
  have hplace := two_zpow_pos (lastPlace x)
  have hm0 : m ≠ 0 := by
    rintro rfl
    exact hne (by rw [hm, Int.cast_zero, zero_mul])
  have hone : (1 : ℚ) ≤ |(m : ℚ)| := by exact_mod_cast Int.one_le_abs hm0
  calc (2 : ℚ) ^ lastPlace x = 1 * 2 ^ lastPlace x := (one_mul _).symm
    _ ≤ |(m : ℚ)| * 2 ^ lastPlace x := mul_le_mul_of_nonneg_right hone hplace.le
    _ = |x| := by conv_rhs => rw [hm, abs_mul, abs_of_pos hplace]

/-- Between two doubles, or a double and a power of two, there is at least one place. -/
theorem IsDouble.gap (hx : IsDouble x) (hn : lastPlace x ≤ n) :
    (|x| < 2 ^ n → |x| + 2 ^ lastPlace x ≤ 2 ^ n) ∧ (2 ^ n < |x| → 2 ^ n + 2 ^ lastPlace x ≤ |x|) := by
  obtain ⟨m, hm⟩ := hx
  have hplace := two_zpow_pos (lastPlace x)
  have habs : |x| = (|m| : ℤ) * 2 ^ lastPlace x := by
    conv_lhs => rw [hm, abs_mul, abs_of_pos hplace]
    rw [Int.cast_abs]
  have hpow := rescale_two hn 1
  rw [Int.cast_one, one_mul, one_mul] at hpow
  generalize (2 : ℤ) ^ (n - lastPlace x).toNat = k at hpow
  rw [habs, hpow]
  generalize (2 : ℚ) ^ lastPlace x = place at hplace ⊢
  constructor
  · intro h
    have hlt : |m| + 1 ≤ k := by exact_mod_cast lt_of_mul_lt_mul_right h hplace.le
    calc ((|m| : ℤ) : ℚ) * place + place = ((|m| + 1 : ℤ) : ℚ) * place := by push_cast; ring
      _ ≤ k * place := mul_le_mul_of_nonneg_right (by exact_mod_cast hlt) hplace.le
  · intro h
    have hlt : k + 1 ≤ |m| := by exact_mod_cast lt_of_mul_lt_mul_right h hplace.le
    calc (k : ℚ) * place + place = ((k + 1 : ℤ) : ℚ) * place := by push_cast; ring
      _ ≤ ((|m| : ℤ) : ℚ) * place := mul_le_mul_of_nonneg_right (by exact_mod_cast hlt) hplace.le

theorem nearestDouble_of_place (hn : lastPlace y = n) (hm : x = m * 2 ^ n) (hnear : |y - x| < 2 ^ n / 2) :
    nearestDouble y = x := by
  have hpos := two_zpow_pos n
  rw [nearestDouble, hn, hm]
  congr 2
  refine roundHalfEven_of_near ?_
  have hquot : y / 2 ^ n - m = (y - x) / 2 ^ n := by
    rw [hm, sub_div, mul_div_cancel_right₀ _ hpos.ne']
  rw [hquot, abs_div, abs_of_pos hpos, div_lt_iff₀ hpos]
  linarith

/-- What is nearer to a double than half of its place leads back to it. Below a power
of two that is half as far. -/
theorem nearestDouble_of_near (hx : IsDouble x) (hne : x ≠ 0) (hnear : |y - x| < 2 ^ lastPlace x / 2)
    (hpower : |x| = 2 ^ Int.log 2 |x| → |y - x| < 2 ^ lastPlace x / 4) : nearestDouble y = x := by
  have hplace := two_zpow_pos (lastPlace x)
  have hle := hx.place_le hne
  have hsub : |x| - |y - x| ≤ |y| ∧ |y| ≤ |x| + |y - x| := by
    constructor <;> cases abs_cases x <;> cases abs_cases y <;> cases abs_cases (y - x) <;> linarith
  have hupper : |y| < 2 ^ (Int.log 2 |x| + 1) := by
    have hgap := (hx.gap (by omega)).1 (lt_zpow_log x)
    linarith [hsub.2]
  obtain ⟨m, hm⟩ := id hx
  by_cases hpow : |x| = 2 ^ Int.log 2 |x|
  · have hquarter := hpower hpow
    have hstep : (2 : ℚ) ^ Int.log 2 |x| = 2 * 2 ^ (Int.log 2 |x| - 1) := by
      rw [← zpow_one_add₀ (by norm_num)]
      congr 1
      omega
    have hsmall : (2 : ℚ) ^ lastPlace x ≤ 2 ^ Int.log 2 |x| := zpow_le_zpow_right₀ (by norm_num) hle
    have hlower : 2 ^ (Int.log 2 |x| - 1) ≤ |y| := by linarith [hsub.1]
    have hy0 : y ≠ 0 := by
      rintro rfl
      rw [abs_zero] at hlower
      exact absurd hlower (not_le.mpr (two_zpow_pos _))
    have hlow := le_log hy0 hlower
    have hhigh := log_lt hy0 hupper
    have hcases : lastPlace y = lastPlace x ∨ lastPlace y = lastPlace x - 1 := by
      unfold lastPlace
      omega
    rcases hcases with hy | hy
    · exact nearestDouble_of_place hy hm (by linarith)
    · have hhalf : (2 : ℚ) ^ lastPlace x = 2 * 2 ^ (lastPlace x - 1) := by
        rw [← zpow_one_add₀ (by norm_num)]
        congr 1
        omega
      refine nearestDouble_of_place (m := 2 * m) hy ?_ (by linarith)
      refine hm.trans ((congrArg (fun place => (m : ℚ) * place) hhalf).trans ?_)
      push_cast
      ring
  · have hlower : 2 ^ Int.log 2 |x| ≤ |y| := by
      have hgap := (hx.gap hle).2 (lt_of_le_of_ne (zpow_log_le hne) (Ne.symm hpow))
      linarith [hsub.1]
    have hy0 : y ≠ 0 := by
      rintro rfl
      rw [abs_zero] at hlower
      exact absurd hlower (not_le.mpr (two_zpow_pos _))
    have hlow := le_log hy0 hlower
    have hhigh := log_lt hy0 hupper
    refine nearestDouble_of_place ?_ hm hnear
    unfold lastPlace
    omega

theorem significant_sub_le (hne : x ≠ 0) (n : ℕ) : |(significant x (n + 1)).value - x| ≤ |x| / 10 ^ n / 2 := by
  have hten : (0 : ℚ) < 10 ^ (significant x (n + 1)).exponent := by positivity
  have hexp : (significant x (n + 1)).exponent = Int.log 10 |x| - n := by simp [significant]
  have herror := abs_roundHalfEven_sub_le (x / 10 ^ (significant x (n + 1)).exponent)
  have hlead : (10 : ℚ) ^ Int.log 10 |x| ≤ |x| := by
    exact_mod_cast Int.zpow_log_le_self (b := 10) (by norm_num) (abs_pos.mpr hne)
  have hunit : (10 : ℚ) ^ (significant x (n + 1)).exponent ≤ |x| / 10 ^ n := by
    rw [hexp, zpow_sub₀ (by norm_num), zpow_natCast]
    exact div_le_div_of_nonneg_right hlead (by positivity)
  calc |(significant x (n + 1)).value - x|
      = |(roundHalfEven (x / 10 ^ (significant x (n + 1)).exponent) : ℚ) - x / 10 ^ (significant x (n + 1)).exponent| *
          10 ^ (significant x (n + 1)).exponent := by
        rw [← abs_of_pos hten, ← abs_mul, abs_of_pos hten, sub_mul, div_mul_cancel₀ _ hten.ne']
        rfl
    _ ≤ 1 / 2 * 10 ^ (significant x (n + 1)).exponent := mul_le_mul_of_nonneg_right herror hten.le
    _ ≤ |x| / 10 ^ n / 2 := by linarith

/-- A double is less than 10^16 of its places from zero. -/
theorem size_lt (x : ℚ) : (2 : ℚ) ^ (Int.log 2 |x| + 1) < 10 ^ 16 * 2 ^ lastPlace x := by
  have hplace : (2 : ℚ) ^ (Int.log 2 |x| - 52) ≤ 2 ^ lastPlace x := zpow_le_zpow_right₀ (by norm_num) (le_max_left _ _)
  have hpos := two_zpow_pos (Int.log 2 |x| - 52)
  calc (2 : ℚ) ^ (Int.log 2 |x| + 1) = 2 ^ (53 : ℤ) * 2 ^ (Int.log 2 |x| - 52) := by
        rw [← zpow_add₀ (by norm_num)]
        congr 1
        omega
    _ < 10 ^ 16 * 2 ^ (Int.log 2 |x| - 52) := mul_lt_mul_of_pos_right (by norm_num) hpos
    _ ≤ 10 ^ 16 * 2 ^ lastPlace x := mul_le_mul_of_nonneg_left hplace (by norm_num)

/-- Seventeen digits lead back to every double. -/
theorem nearestDouble_significant (hx : IsDouble x) (hne : x ≠ 0) : nearestDouble (significant x 17).value = x := by
  have herror := significant_sub_le hne 16
  have hsize := size_lt x
  have hdouble : (2 : ℚ) ^ (Int.log 2 |x| + 1) = 2 * 2 ^ Int.log 2 |x| := by
    rw [zpow_add_one₀ (by norm_num), mul_comm]
  refine nearestDouble_of_near hx hne ?_ (fun hpower => ?_)
  · have hlt := lt_zpow_log x
    rw [div_div, le_div_iff₀ (by norm_num)] at herror
    linarith
  · rw [hpower, div_div, le_div_iff₀ (by norm_num)] at herror
    linarith

/-- What a double is printed with leads back to it. -/
theorem nearestDouble_shortest (hx : IsDouble x) : nearestDouble (shortest x).value = x := by
  rcases shortest_cases x with ⟨n, -, hback⟩ | hdigits
  · exact hback
  · by_cases hne : x = 0
    · obtain ⟨n, hn⟩ := shortest_neighbour x
      have hzero : (shortest x).value = 0 := by
        rw [hne] at hn ⊢
        exact hn.value_zero
      have hround : roundHalfEven (0 : ℚ) = 0 := by simpa using roundHalfEven_intCast 0
      rw [hzero, hne, nearestDouble, zero_div, hround, Int.cast_zero, zero_mul]
    · rw [hdigits]
      exact nearestDouble_significant hx hne

theorem spelled_not_int (d : Decimal) : d.spelled.isInt = false := by
  unfold spelled
  split_ifs with h
  · rfl
  · exact decide_eq_false (fun he => h (.inl he))

/-- A float as a number is itself. -/
theorem toFloat_toFloat (h : d.toFloat = .finite e) : e.isInt = false ∧ e.toFloat = .finite e := by
  unfold toFloat at h
  dsimp only at h
  split at h
  · cases h
  · next hsmall =>
      have he : (shortest (nearestDouble d.value)).spelled = e := Numeral.finite.inj h
      have hback : nearestDouble e.value = nearestDouble d.value := by
        rw [← he, spelled_value]
        exact nearestDouble_shortest (nearestDouble_isDouble d.value)
      constructor
      · rw [← he]
        exact spelled_not_int _
      · unfold toFloat
        dsimp only
        rw [hback, if_neg hsmall, he]

end MoomooMcp.Decimal
