import MoomooMcp.Rounding

namespace MoomooMcp.Decimal

/-- The largest precision that a context can be given, and the most digits of a number. -/
def maxPrec : ℕ := 999999999999999999

/-- An arithmetic context: how many digits a result may have, and the exponents of its leading digit. -/
structure Context where
  prec : ℕ
  emin : ℤ
  emax : ℤ

namespace Context

/-- The finest exponent of a number whose leading digit is as small as it may be. -/
def etiny (c : Context) : ℤ := c.emin - c.prec + 1

/-- The exponent of a number that has all its digits and the largest leading one. -/
def etop (c : Context) : ℤ := c.emax - c.prec + 1

/-- A number fitted into a context: rounded, half to even, to its precision and to its
finest exponent. There is no result where it overflows. -/
def fix (c : Context) (d : Decimal) : Option Decimal :=
  if d.coefficient = 0 then some ⟨0, min (max d.exponent c.etiny) c.emax⟩
  else if c.etop < digits d.coefficient.natAbs + d.exponent - c.prec then none
  else
    let expMin := max (digits d.coefficient.natAbs + d.exponent - c.prec) c.etiny
    if d.exponent < expMin then
      let coeff := roundHalfEven (d.coefficient / 10 ^ (expMin - d.exponent).toNat)
      let r : Decimal := if c.prec < digits coeff.natAbs then ⟨coeff / 10, expMin + 1⟩ else ⟨coeff, expMin⟩
      if c.etop < r.exponent then none else some r
    else some d

def add (c : Context) (a b : Decimal) : Option Decimal := c.fix (exactAdd a b)

/-- The sum of a list, added up from the left. -/
def sum (c : Context) (ds : List Decimal) : Option Decimal := ds.foldlM c.add ⟨0, 0⟩

end Context

/-- The sum of a list without any context. -/
def exactSum (ds : List Decimal) : Decimal := ds.foldl exactAdd ⟨0, 0⟩

theorem foldl_exactAdd_value (ds : List Decimal) (a : Decimal) :
    (ds.foldl exactAdd a).value = a.value + (ds.map value).sum := by
  induction ds generalizing a with
  | nil => simp
  | cons d ds ih => rw [List.foldl_cons, ih, value_exactAdd, List.map_cons, List.sum_cons, add_assoc]

@[simp] theorem value_exactSum (ds : List Decimal) : (exactSum ds).value = (ds.map value).sum := by
  rw [exactSum, foldl_exactAdd_value]
  simp [value]

theorem value_nonneg_iff {d : Decimal} : 0 ≤ d.value ↔ 0 ≤ d.coefficient := by
  rw [value, mul_nonneg_iff_of_pos_right (by positivity), Int.cast_nonneg_iff]

/-- The exponent of the leading digit bounds the magnitude. -/
theorem adjusted_le_iff {d : Decimal} {k : ℤ} : d.coefficient = 0 ∨ d.adjusted ≤ k ↔ |d.value| < 10 ^ (k + 1) := by
  by_cases hc : d.coefficient = 0
  · refine iff_of_true (.inl hc) ?_
    rw [value_eq_zero.mpr hc, abs_zero]
    positivity
  · have hpos : 0 < |d.value| := abs_pos.mpr (mt value_eq_zero.mp hc)
    have hlog := Int.lt_zpow_iff_log_lt (x := k + 1) (by norm_num : 1 < 10) hpos
    rw [Nat.cast_ofNat] at hlog
    rw [hlog, adjusted_eq_log hc, or_iff_right hc, Int.lt_add_one_iff]

namespace Context

/-- A number that has room for its digits stays as it is, or overflows. -/
theorem fix_fits {c : Context} {d : Decimal} (hdigits : digits d.coefficient.natAbs ≤ c.prec)
    (htiny : c.etiny ≤ d.exponent) (hexp : d.exponent ≤ c.emax) :
    c.fix d = if |d.value| < 10 ^ (c.emax + 1) then some d else none := by
  by_cases hzero : d.coefficient = 0
  · have hsame : (⟨0, min (max d.exponent c.etiny) c.emax⟩ : Decimal) = d := by
      rw [max_eq_left htiny, min_eq_left hexp, ← hzero]
    rw [fix, if_pos hzero, if_pos (adjusted_le_iff.mp (.inl hzero)), hsame]
  · have htop : c.etop < digits d.coefficient.natAbs + d.exponent - c.prec ↔ ¬ d.adjusted ≤ c.emax := by
      simp only [etop, adjusted]
      omega
    rw [fix, if_neg hzero]
    by_cases hbig : d.adjusted ≤ c.emax
    · have hkept : ¬ d.exponent < max (digits d.coefficient.natAbs + d.exponent - c.prec) c.etiny := by
        rw [not_lt, max_le_iff]
        exact ⟨by omega, htiny⟩
      rw [if_neg (not_iff_not.mpr htop |>.mpr (not_not.mpr hbig)), if_pos (adjusted_le_iff.mp (.inr hbig))]
      simp only [if_neg hkept]
    · have hover : ¬ |d.value| < 10 ^ (c.emax + 1) := mt adjusted_le_iff.mpr (not_or.mpr ⟨hzero, hbig⟩)
      rw [if_pos (htop.mpr hbig), if_neg hover]

end Context

/-- What a partial sum of `k` numbers keeps: it is not large, not fine, and exact. -/
structure Partial (i f k : ℕ) (total : ℚ) (d : Decimal) : Prop where
  bounded : |d.value| ≤ k * 10 ^ i
  coarse : -(f : ℤ) ≤ d.exponent
  exact : d.value = total

/-- One more number, added exactly. -/
theorem Partial.step {i f k : ℕ} {total : ℚ} {a b : Decimal} (h : Partial i f k total a) (hb : b.adjusted + 1 ≤ i)
    (hf : -(f : ℤ) ≤ b.exponent) : Partial i f (k + 1) (total + b.value) (exactAdd a b) := by
  refine ⟨?_, le_min h.coarse hf, by rw [value_exactAdd, h.exact]⟩
  have hb' := (abs_value_lt hb).le
  have hsum := abs_add_le a.value b.value
  have ha := h.bounded
  rw [value_exactAdd]
  push_cast
  linarith

/-- A partial sum fits a precision that covers the digits and the carries. -/
theorem Partial.fits {i f k m prec : ℕ} {total : ℚ} {d : Decimal} (h : Partial i f k total d) (hk : k < 10 ^ m)
    (hprec : i + f + m < prec) : digits d.coefficient.natAbs ≤ prec := by
  have hsmall : |d.value| < 10 ^ (i + m) := by
    have hm : (k : ℚ) < 10 ^ m := by exact_mod_cast hk
    calc |d.value| ≤ k * 10 ^ i := h.bounded
      _ < 10 ^ m * 10 ^ i := mul_lt_mul_of_pos_right hm (by positivity)
      _ = 10 ^ (i + m) := by rw [← pow_add, Nat.add_comm]
  have hfiner : -((f + 1 : ℕ) : ℤ) ≤ d.exponent := by
    have hcoarse := h.coarse
    push_cast
    omega
  have hbound := digits_bound (by omega) hsmall hfiner
  omega

variable {c : Context} {i f m k : ℕ} {total : ℚ} {a : Decimal} {ds : List Decimal}

/-- A context with room for `i` integer digits, `f` fractional digits and `m` digits of carries. -/
structure Context.Covers (c : Context) (i f m : ℕ) : Prop where
  prec : i + f + m < c.prec
  tiny : c.etiny ≤ -(f : ℤ)

theorem Partial.add_eq (h : Partial i f k total a) (hc : c.Covers i f m) (hk : k + 1 < 10 ^ m) (hexp : a.exponent ≤ c.emax)
    {b : Decimal} (hb : b.adjusted + 1 ≤ i) (hf : -(f : ℤ) ≤ b.exponent) :
    c.add a b = if |(exactAdd a b).value| < 10 ^ (c.emax + 1) then some (exactAdd a b) else none := by
  have hstep := h.step hb hf
  exact Context.fix_fits (hstep.fits hk hc.prec) (hc.tiny.trans hstep.coarse) ((min_le_left _ _).trans hexp)

/-- What such a context adds up is not rounded. -/
theorem Partial.sum_some (h : Partial i f k total a) (hc : c.Covers i f m) (hk : k + ds.length < 10 ^ m)
    (hexp : a.exponent ≤ c.emax) (hi : ∀ d ∈ ds, d.adjusted + 1 ≤ i) (hf : ∀ d ∈ ds, -(f : ℤ) ≤ d.exponent)
    {r : Decimal} (hsum : ds.foldlM c.add a = some r) : r = ds.foldl exactAdd a := by
  induction ds generalizing k total a with
  | nil =>
      cases hsum
      rfl
  | cons d ds ih =>
      rw [List.length_cons] at hk
      have hd := hi d List.mem_cons_self
      have hd' := hf d List.mem_cons_self
      obtain ⟨b, hb, hrest⟩ := Option.bind_eq_some_iff.mp hsum
      rw [h.add_eq hc (by omega) hexp hd hd'] at hb
      obtain ⟨_, hb⟩ := Option.ite_none_right_eq_some.mp hb
      obtain rfl : exactAdd a d = b := Option.some.inj hb
      exact ih (h.step hd hd') (by omega) ((min_le_left _ _).trans hexp) (fun d' hm => hi d' (List.mem_cons_of_mem _ hm))
        (fun d' hm => hf d' (List.mem_cons_of_mem _ hm)) hrest

/-- Numbers that are not negative overflow only where their sum does. -/
theorem Partial.sum_isSome (h : Partial i f k total a) (hc : c.Covers i f m) (hk : k + ds.length < 10 ^ m)
    (hexp : a.exponent ≤ c.emax) (hi : ∀ d ∈ ds, d.adjusted + 1 ≤ i) (hf : ∀ d ∈ ds, -(f : ℤ) ≤ d.exponent)
    (ha : 0 ≤ a.value) (hsmall : a.value < 10 ^ (c.emax + 1)) (hds : ∀ d ∈ ds, 0 ≤ d.value) :
    (ds.foldlM c.add a).isSome ↔ a.value + (ds.map value).sum < 10 ^ (c.emax + 1) := by
  induction ds generalizing k total a with
  | nil => simp [hsmall]
  | cons d ds ih =>
      rw [List.length_cons] at hk
      have hd := hi d List.mem_cons_self
      have hd' := hf d List.mem_cons_self
      have hrest : ∀ d' ∈ ds, 0 ≤ d'.value := fun d' hm => hds d' (List.mem_cons_of_mem _ hm)
      have hsum : 0 ≤ (ds.map value).sum := List.sum_nonneg (by simpa using hrest)
      have hnext : 0 ≤ (exactAdd a d).value := by
        rw [value_exactAdd]
        exact add_nonneg ha (hds d List.mem_cons_self)
      rw [List.foldlM_cons, h.add_eq hc (by omega) hexp hd hd', List.map_cons, List.sum_cons, ← add_assoc,
        ← value_exactAdd, abs_of_nonneg hnext]
      by_cases hfits : (exactAdd a d).value < 10 ^ (c.emax + 1)
      · rw [if_pos hfits]
        exact ih (h.step hd hd') (by omega) ((min_le_left _ _).trans hexp)
          (fun d' hm => hi d' (List.mem_cons_of_mem _ hm)) (fun d' hm => hf d' (List.mem_cons_of_mem _ hm)) hnext hfits hrest
      · rw [if_neg hfits]
        refine iff_of_false (by simp) ?_
        linarith

/-- Room for the digits of a list: all the integer and fractional digits, and the carries. -/
theorem Partial.none (ds : List Decimal) : Partial (integerDigits ds) (fractionalDigits ds) 0 0 ⟨0, 0⟩ :=
  ⟨by simp [value], by simp, by simp [value]⟩

theorem Context.covers (hprec : integerDigits ds + fractionalDigits ds + digits ds.length < c.prec) (hemin : c.emin ≤ 0) :
    c.Covers (integerDigits ds) (fractionalDigits ds) (digits ds.length) := by
  refine ⟨hprec, ?_⟩
  rw [Context.etiny]
  omega

theorem length_lt_pow_digits (ds : List Decimal) : 0 + ds.length < 10 ^ digits ds.length := by
  rw [Nat.zero_add]
  exact lt_pow_digits _

theorem Context.sum_some (hprec : integerDigits ds + fractionalDigits ds + digits ds.length < c.prec)
    (hemin : c.emin ≤ 0) (hemax : 0 ≤ c.emax) {r : Decimal} (h : c.sum ds = some r) : r = exactSum ds :=
  (Partial.none ds).sum_some (Context.covers hprec hemin) (length_lt_pow_digits ds) hemax
    (fun _ => adjusted_le_integerDigits) (fun _ => exponent_le_fractionalDigits) h

theorem Context.sum_isSome (hprec : integerDigits ds + fractionalDigits ds + digits ds.length < c.prec)
    (hemin : c.emin ≤ 0) (hemax : 0 ≤ c.emax) (hds : ∀ d ∈ ds, 0 ≤ d.value) :
    (c.sum ds).isSome ↔ (ds.map value).sum < 10 ^ (c.emax + 1) := by
  have hstart : (⟨0, 0⟩ : Decimal).value = 0 := by simp [value]
  have hsum := (Partial.none ds).sum_isSome (Context.covers hprec hemin) (length_lt_pow_digits ds) hemax
    (fun _ => adjusted_le_integerDigits) (fun _ => exponent_le_fractionalDigits) hstart.ge
    (by rw [hstart]; positivity) hds
  rwa [hstart, zero_add] at hsum

end MoomooMcp.Decimal
