import MoomooMcp.Numbers

namespace MoomooMcp

open Text

/-- The zeros at the end of a fraction say nothing. -/
def dropZeros (cs : List Char) : List Char := (cs.reverse.dropWhile (· = '0')).reverse

theorem dropZeros_append (cs : List Char) : ∃ k, cs = dropZeros cs ++ List.replicate k '0' := by
  induction cs using List.reverseRecOn with
  | nil => exact ⟨0, rfl⟩
  | append_singleton cs c ih =>
      by_cases hc : c = '0'
      · obtain ⟨k, hk⟩ := ih
        refine ⟨k + 1, ?_⟩
        have hdrop : dropZeros (cs ++ [c]) = dropZeros cs := by simp [dropZeros, hc]
        rw [hdrop, List.replicate_succ', ← List.append_assoc, ← hk, hc]
      · exact ⟨0, by simp [dropZeros, hc]⟩

theorem dropZeros_zero (cs : List Char) : dropZeros (cs ++ ['0']) = dropZeros cs := by
  simp [dropZeros]

theorem mem_of_mem_dropZeros {cs : List Char} {c : Char} (h : c ∈ dropZeros cs) : c ∈ cs := by
  obtain ⟨k, hk⟩ := dropZeros_append cs
  rw [hk]
  exact List.mem_append_left _ h

theorem digitsValue_zeros (xs : List Char) (k : ℕ) :
    digitsValue (xs ++ List.replicate k '0') = digitsValue xs * 10 ^ k := by
  rw [digitsValue, Nat.ofDigitChars_append, Nat.ofDigitChars_replicate_zero, Nat.mul_comm]
  rfl

theorem repr_eq_iff {a b : ℕ} : a.repr = b.repr ↔ a = b := by
  refine ⟨fun h => ?_, congrArg Nat.repr⟩
  have hdigits : Nat.toDigits 10 a = Nat.toDigits 10 b := by rw [← Nat.toList_repr, h, Nat.toList_repr]
  rw [← Nat.ofDigitChars_ten_toDigits (n := a), hdigits, Nat.ofDigitChars_ten_toDigits]

namespace Decimal

variable {d e : Decimal}

theorem digitChars_length (d : Decimal) : d.digitChars.length = digits d.coefficient.natAbs := by
  apply le_antisymm
  · exact (Nat.length_toDigits_le_iff (by decide) (Nat.succ_pos _)).mpr (lt_pow_digits _)
  · apply digits_le Nat.length_toDigits_pos
    exact (Nat.length_toDigits_le_iff (by decide) Nat.length_toDigits_pos).mp le_rfl

theorem digitChars_value (d : Decimal) : digitsValue d.digitChars = d.coefficient.natAbs := Nat.ofDigitChars_ten_toDigits

theorem padded_ten (c e : ℤ) (he : e ≤ 0) : (⟨10 * c, e - 1⟩ : Decimal).padded = (⟨c, e⟩ : Decimal).padded ++ ['0'] := by
  have hplaces : (-(e - 1)).toNat = (-e).toNat + 1 := by omega
  by_cases hc : c = 0
  · subst hc
    simp only [padded, digitChars, hplaces, mul_zero, Int.natAbs_zero, Nat.toDigits_zero, List.length_singleton,
      Nat.add_sub_cancel]
    rw [List.replicate_succ']
  · have hpos : 0 < c.natAbs := Int.natAbs_pos.mpr hc
    have hdigits : Nat.toDigits 10 (10 * c).natAbs = Nat.toDigits 10 c.natAbs ++ ['0'] := by
      rw [Int.natAbs_mul, ← Nat.toDigits_zero 10, Nat.toDigits_append_toDigits (by decide) hpos (by decide)]
      rfl
    simp only [padded, digitChars, hplaces, hdigits, List.length_append, List.length_singleton]
    rw [← List.append_assoc]
    congr 3
    omega

/-- The digits before and behind the point. -/
def joined (whole fraction : List Char) : List Char := if fraction = [] then whole else whole ++ '.' :: fraction

def wholePart (d : Decimal) : List Char := d.padded.take (d.padded.length - (-d.exponent).toNat)

def fractionDigits (d : Decimal) : List Char := d.padded.drop (d.padded.length - (-d.exponent).toNat)

def signText (d : Decimal) : String := if d.coefficient < 0 then "-" else ""

theorem rendered_fraction (he : d.exponent ≤ 0) :
    Intent.rendered d = d.signText ++ String.ofList (joined d.wholePart (dropZeros d.fractionDigits)) := by
  have hzero : d.exponent.toNat = 0 := Int.toNat_eq_zero.mpr he
  rw [Intent.rendered, hzero]
  simp only [pow_zero, mul_one]
  rfl

theorem rendered_ten (c e : ℤ) (he : e ≤ 0) : Intent.rendered ⟨10 * c, e - 1⟩ = Intent.rendered ⟨c, e⟩ := by
  have hplaces : (-(e - 1)).toNat = (-e).toNat + 1 := by omega
  have hlen := (⟨c, e⟩ : Decimal).padded_length
  have hsign : (⟨10 * c, e - 1⟩ : Decimal).signText = (⟨c, e⟩ : Decimal).signText := by
    simp only [signText]
    by_cases hc : c < 0
    · rw [if_pos hc, if_pos (by omega)]
    · rw [if_neg hc, if_neg (by omega)]
  have hcut : (⟨c, e⟩ : Decimal).padded.length + 1 - ((-e).toNat + 1) = (⟨c, e⟩ : Decimal).padded.length - (-e).toNat := by
    omega
  have hwhole : (⟨10 * c, e - 1⟩ : Decimal).wholePart = (⟨c, e⟩ : Decimal).wholePart := by
    simp only [wholePart, padded_ten c e he, hplaces, List.length_append, List.length_singleton, hcut]
    exact List.take_append_of_le_length (Nat.sub_le _ _)
  have hfraction : (⟨10 * c, e - 1⟩ : Decimal).fractionDigits = (⟨c, e⟩ : Decimal).fractionDigits ++ ['0'] := by
    simp only [fractionDigits, padded_ten c e he, hplaces, List.length_append, List.length_singleton, hcut]
    exact List.drop_append_of_le_length (Nat.sub_le _ _)
  rw [rendered_fraction (show (⟨10 * c, e - 1⟩ : Decimal).exponent ≤ 0 by dsimp only; omega), rendered_fraction he, hsign,
    hwhole, hfraction, dropZeros_zero]

theorem rendered_shift (c e : ℤ) (he : e ≤ 0) (k : ℕ) : Intent.rendered ⟨c * 10 ^ k, e - k⟩ = Intent.rendered ⟨c, e⟩ := by
  induction k with
  | zero => simp
  | succ k ih =>
      rw [← ih, ← rendered_ten (c * 10 ^ k) (e - k) (by omega)]
      congr 2
      · rw [pow_succ]
        ring
      · push_cast
        omega

/-- An integer is written out in full. -/
theorem rendered_integer (c : ℤ) (k : ℕ) : Intent.rendered ⟨c * 10 ^ k, 0⟩ = Intent.rendered ⟨c, k⟩ := by
  have hpow : (0 : ℤ) < 10 ^ k := by positivity
  have hneg : c * 10 ^ k < 0 ↔ c < 0 := by
    constructor
    · intro h
      by_contra hc
      exact absurd (mul_nonneg (not_lt.mp hc) hpow.le) (not_le.mpr h)
    · exact fun h => mul_neg_of_neg_of_pos h hpow
  have habs : (c * 10 ^ k).natAbs = c.natAbs * 10 ^ k := by
    rw [Int.natAbs_mul, Int.natAbs_pow]
    rfl
  have hplaces : (-(k : ℤ)).toNat = 0 := by omega
  simp only [Intent.rendered, hneg, habs, hplaces, Int.toNat_natCast, Int.toNat_zero, pow_zero, mul_one, neg_zero]

/-- The same number with an exponent that is not positive. -/
def flat (d : Decimal) : Decimal := if 0 < d.exponent then ⟨d.coefficient * 10 ^ d.exponent.toNat, 0⟩ else d

theorem flat_exponent (d : Decimal) : d.flat.exponent ≤ 0 := by
  unfold flat
  split
  · exact le_rfl
  · next h => exact not_lt.mp h

theorem flat_value (d : Decimal) : d.flat.value = d.value := by
  unfold flat
  split
  · next h =>
      have hcast : ((d.exponent.toNat : ℕ) : ℤ) = d.exponent := Int.toNat_of_nonneg h.le
      rw [value, value, zpow_zero, mul_one, Int.cast_mul, Int.cast_pow, ← zpow_natCast, hcast]
      rfl
  · rfl

theorem rendered_flat (d : Decimal) : Intent.rendered d.flat = Intent.rendered d := by
  unfold flat
  split
  · next h =>
      rw [rendered_integer, Int.toNat_of_nonneg h.le]
  · rfl

theorem rendered_rescale {m : ℤ} (he : d.exponent ≤ 0) (hm : m ≤ d.exponent) :
    Intent.rendered ⟨d.rescale m, m⟩ = Intent.rendered d := by
  have hk : d.exponent - ((d.exponent - m).toNat : ℕ) = m := by omega
  rw [← rendered_shift d.coefficient d.exponent he (d.exponent - m).toNat, hk]
  rfl

/-- Equal numbers are rendered alike. -/
theorem rendered_of_value (h : d.value = e.value) : Intent.rendered d = Intent.rendered e := by
  obtain ⟨m, hm⟩ : ∃ m, m = min d.flat.exponent e.flat.exponent := ⟨_, rfl⟩
  have hd : m ≤ d.flat.exponent := hm ▸ min_le_left _ _
  have he : m ≤ e.flat.exponent := hm ▸ min_le_right _ _
  have hsame : (d.flat.rescale m : ℚ) * 10 ^ m = e.flat.rescale m * 10 ^ m := by
    rw [value_at hd, value_at he, flat_value, flat_value, h]
  have hcoefficient : d.flat.rescale m = e.flat.rescale m := by
    exact_mod_cast mul_right_cancel₀ (zpow_ne_zero m (by norm_num)) hsame
  rw [← rendered_flat d, ← rendered_flat e, ← rendered_rescale d.flat_exponent hd, ← rendered_rescale e.flat_exponent he,
    hcoefficient]

/-- The number that a plain text denotes. -/
def plainValue (s : String) : Option ℚ :=
  let (negative, rest) := signed s.toList
  (plainDecimal rest).map (fun d => if negative then -d.value else d.value)

theorem wholePart_ne (d : Decimal) : d.wholePart ≠ [] := by
  have hlen := d.padded_length
  apply List.ne_nil_of_length_pos
  rw [wholePart, List.length_take]
  omega

theorem wholePart_digits (d : Decimal) : ∀ c ∈ d.wholePart, c.isDigit = true :=
  fun c hc => d.padded_digits c (List.mem_of_mem_take hc)

theorem fractionDigits_digits (d : Decimal) : ∀ c ∈ d.fractionDigits, c.isDigit = true :=
  fun c hc => d.padded_digits c (List.mem_of_mem_drop hc)

theorem fractionDigits_length (d : Decimal) : d.fractionDigits.length = (-d.exponent).toNat := by
  have hlen := d.padded_length
  rw [fractionDigits, List.length_drop]
  omega

/-- The digits read back as the magnitude of the number. -/
theorem plainDecimal_joined (he : d.exponent ≤ 0) :
    ∃ r, plainDecimal (joined d.wholePart (dropZeros d.fractionDigits)) = some r ∧
      r.value = d.coefficient.natAbs * 10 ^ d.exponent := by
  obtain ⟨k, hk⟩ := dropZeros_append d.fractionDigits
  have hlen : (dropZeros d.fractionDigits).length + k = (-d.exponent).toNat := by
    rw [← d.fractionDigits_length]
    conv_rhs => rw [hk]
    rw [List.length_append, List.length_replicate]
  have hvalue : digitsValue (d.wholePart ++ dropZeros d.fractionDigits) * 10 ^ k = d.coefficient.natAbs := by
    have hsplit : d.wholePart ++ d.fractionDigits = d.padded := List.take_append_drop _ _
    rw [← digitsValue_zeros, List.append_assoc, ← hk, hsplit, padded_value]
  have hexp : d.exponent = -((dropZeros d.fractionDigits).length : ℤ) - k := by omega
  have hmagnitude : (d.coefficient.natAbs : ℚ) * 10 ^ d.exponent =
      digitsValue (d.wholePart ++ dropZeros d.fractionDigits) * 10 ^ (-((dropZeros d.fractionDigits).length : ℤ)) := by
    rw [← hvalue, hexp, zpow_sub₀ (by norm_num : (10 : ℚ) ≠ 0), zpow_natCast]
    push_cast
    field_simp
  rw [hmagnitude]
  have hdigits : ∀ c ∈ dropZeros d.fractionDigits, c.isDigit = true :=
    fun c hc => d.fractionDigits_digits c (mem_of_mem_dropZeros hc)
  unfold joined
  by_cases hf : dropZeros d.fractionDigits = []
  · rw [if_pos hf, hf, List.append_nil]
    exact ⟨_, plainDecimal_digits d.wholePart_ne d.wholePart_digits, rfl⟩
  · rw [if_neg hf]
    exact ⟨_, plainDecimal_point d.wholePart_ne d.wholePart_digits hf hdigits, rfl⟩

theorem joined_head (d : Decimal) : ∃ c cs, joined d.wholePart (dropZeros d.fractionDigits) = c :: cs ∧ c.isDigit = true := by
  obtain ⟨c, cs, hw⟩ := List.exists_cons_of_ne_nil d.wholePart_ne
  have hc : c.isDigit = true := d.wholePart_digits c (by simp [hw])
  unfold joined
  split
  · exact ⟨c, cs, hw, hc⟩
  · exact ⟨c, _, by rw [hw]; rfl, hc⟩

theorem plainValue_minus (cs : List Char) :
    plainValue ("-" ++ String.ofList cs) = (plainDecimal cs).map (fun d => -d.value) := by
  have htext : ("-" ++ String.ofList cs).toList = '-' :: cs := by simp
  simp only [plainValue, htext, signed, if_true]

theorem plainValue_unsigned {c : Char} {cs : List Char} (hc : c.isDigit = true) :
    plainValue ("" ++ String.ofList (c :: cs)) = (plainDecimal (c :: cs)).map value := by
  have htext : ("" ++ String.ofList (c :: cs)).toList = c :: cs := by simp
  simp only [plainValue, htext, signed_of_digit hc]
  rfl

/-- A rendered number can be read off its text. -/
theorem plainValue_rendered (d : Decimal) : plainValue (Intent.rendered d) = some d.value := by
  rw [← rendered_flat, ← flat_value, rendered_fraction d.flat_exponent]
  generalize hf : d.flat = u
  have hu : u.exponent ≤ 0 := hf ▸ d.flat_exponent
  obtain ⟨r, hr, hval⟩ := plainDecimal_joined hu
  unfold signText
  by_cases hneg : u.coefficient < 0
  · rw [if_pos hneg, plainValue_minus, hr, Option.map_some, hval, u.value_signed, if_pos hneg]
  · obtain ⟨c, cs, hj, hc⟩ := u.joined_head
    rw [if_neg hneg, hj, plainValue_unsigned hc, ← hj, hr, Option.map_some, hval, u.value_signed, if_neg hneg]

/-- The rendering is canonical: one text for each number. -/
theorem rendered_eq_iff : Intent.rendered d = Intent.rendered e ↔ d.value = e.value := by
  refine ⟨fun h => ?_, rendered_of_value⟩
  have hd := plainValue_rendered d
  rw [h, plainValue_rendered e] at hd
  exact (Option.some.inj hd).symm

end Decimal

end MoomooMcp
