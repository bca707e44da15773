import MoomooMcp.CanonicalNumbers
import MoomooMcp.Checks
import MoomooMcp.OrderRules

namespace MoomooMcp

open Text Decimal

theorem digitsValue_append (xs ys : List Char) :
    digitsValue (xs ++ ys) = 10 ^ ys.length * digitsValue xs + digitsValue ys := by
  rw [digitsValue, Nat.ofDigitChars_append, Nat.ofDigitChars_eq_ofDigitChars_zero]
  rfl

theorem digitsValue_cons (c : Char) (cs : List Char) :
    digitsValue (c :: cs) = 10 ^ cs.length * (c.toNat - 48) + digitsValue cs := by
  rw [digitsValue, Nat.ofDigitChars_cons, Nat.ofDigitChars_eq_ofDigitChars_zero, Nat.mul_zero, Nat.zero_add]
  rfl

theorem isDigit_bounds {c : Char} (h : c.isDigit = true) : 48 ≤ c.toNat ∧ c.toNat ≤ 57 := by
  simp only [Char.isDigit, Bool.and_eq_true, decide_eq_true_eq] at h
  exact ⟨h.1, h.2⟩

theorem digitsValue_lt {cs : List Char} (h : ∀ c ∈ cs, c.isDigit = true) : digitsValue cs < 10 ^ cs.length := by
  induction cs with
  | nil => decide
  | cons c cs ih =>
      have hc := isDigit_bounds (h c List.mem_cons_self)
      have hcs := ih (fun a ha => h a (List.mem_cons_of_mem _ ha))
      have hle : 10 ^ cs.length * (c.toNat - 48) ≤ 10 ^ cs.length * 9 := Nat.mul_le_mul_left _ (by omega)
      rw [digitsValue_cons, List.length_cons, pow_succ]
      omega

theorem digitsValue_eq_zero {cs : List Char} (h : ∀ c ∈ cs, c.isDigit = true) :
    digitsValue cs = 0 ↔ ∀ c ∈ cs, c = '0' := by
  induction cs with
  | nil => exact iff_of_true rfl (fun _ h => absurd h List.not_mem_nil)
  | cons c cs ih =>
      have hc := isDigit_bounds (h c List.mem_cons_self)
      have hzero : c.toNat - 48 = 0 ↔ c = '0' := by
        rw [Nat.sub_eq_zero_iff_le]
        exact ⟨fun hle => Char.toNat_inj.mp (le_antisymm hle hc.1), fun he => by rw [he]; decide⟩
      rw [digitsValue_cons, Nat.add_eq_zero_iff, ih (fun a ha => h a (List.mem_cons_of_mem _ ha)), List.forall_mem_cons,
        Nat.mul_eq_zero, or_iff_right (by positivity), hzero]

namespace OrderRules

variable {d : Decimal} {q : ℚ}

/-- The digits after the last place are what the coefficient leaves below it. -/
theorem offGrid_eq_mod (d : Decimal) (places : ℕ) :
    offGrid d places = decide (d.coefficient.natAbs % 10 ^ (-places - d.exponent).toNat ≠ 0) := by
  obtain ⟨k, hk⟩ : ∃ k, k = (-(places : ℤ) - d.exponent).toNat := ⟨_, rfl⟩
  obtain ⟨low, hlow⟩ : ∃ low, low = d.digitChars.drop (d.digitChars.length - k) := ⟨_, rfl⟩
  have hdigits : ∀ c ∈ low, c.isDigit = true :=
    fun c hc => d.digitChars_digits c (List.mem_of_mem_drop (hlow ▸ hc))
  have hmod : d.coefficient.natAbs % 10 ^ k = digitsValue low := by
    have hsplit : d.coefficient.natAbs =
        10 ^ low.length * digitsValue (d.digitChars.take (d.digitChars.length - k)) + digitsValue low := by
      rw [← digitChars_value, hlow, ← digitsValue_append, List.take_append_drop]
    have hlt := digitsValue_lt hdigits
    have hlen : low.length = min k d.digitChars.length := by
      rw [hlow, List.length_drop]
      omega
    by_cases hle : k ≤ d.digitChars.length
    · rw [hlen, min_eq_left hle] at hsplit hlt
      rw [hsplit, Nat.mul_add_mod, Nat.mod_eq_of_lt hlt]
    · have hall : d.digitChars.length - k = 0 := by omega
      have hpow : 10 ^ low.length ≤ 10 ^ k := Nat.pow_le_pow_right (by norm_num) (by omega)
      rw [hall, List.take_zero] at hsplit
      rw [hsplit, Nat.mod_eq_of_lt]
      · simp [digitsValue]
      · simp only [digitsValue, Nat.ofDigitChars_nil] at hlt ⊢
        omega
  have hany : low.any (· ≠ '0') = decide (digitsValue low ≠ 0) := by
    rw [Bool.eq_iff_iff, List.any_eq_true, decide_eq_true_iff, ne_eq, digitsValue_eq_zero hdigits]
    simp only [decide_eq_true_eq, not_forall, exists_prop, ne_eq]
  rw [← hk, hmod, ← hany]
  simp only [offGrid, ← hk, ← hlow]
  by_cases hpos : 0 < k
  · rw [decide_eq_true hpos, Bool.true_and]
  · have hnone : low = [] := by
      rw [hlow, Nat.eq_zero_of_not_pos hpos]
      exact List.drop_eq_nil_of_le (by omega)
    rw [hnone]
    simp

/-- An integer multiple of a power of ten. -/
def Multiple (places : ℕ) (q : ℚ) : Prop := ∃ k : ℤ, q = k * 10 ^ (-(places : ℤ))

/-- The last digits decide divisibility, however the number is written. -/
theorem onGrid_iff (d : Decimal) (places : ℕ) : offGrid d places = false ↔ Multiple places d.value := by
  rw [offGrid_eq_mod, decide_eq_false_iff_not, not_not]
  by_cases he : -(places : ℤ) ≤ d.exponent
  · have hzero : (-(places : ℤ) - d.exponent).toNat = 0 := Int.toNat_eq_zero.mpr (by omega)
    rw [hzero, pow_zero, Nat.mod_one]
    exact iff_of_true rfl ⟨d.rescale (-places), (value_at he).symm⟩
  · obtain ⟨k, hk⟩ : ∃ k, k = (-(places : ℤ) - d.exponent).toNat := ⟨_, rfl⟩
    have hexp : -(places : ℤ) = k + d.exponent := by omega
    rw [← hk, ← Nat.dvd_iff_mod_eq_zero]
    have hten : (10 : ℚ) ^ d.exponent ≠ 0 := by positivity
    have hvalue : ∀ m : ℤ, d.value = m * 10 ^ (-(places : ℤ)) ↔ d.coefficient = m * 10 ^ k := by
      intro m
      rw [hexp, zpow_add₀ (by norm_num), zpow_natCast, ← mul_assoc, value, mul_right_cancel_iff_of_pos (by positivity)]
      exact_mod_cast Iff.rfl
    constructor
    · intro h
      obtain ⟨m, hm⟩ := Int.natAbs_dvd_natAbs.mp (by rwa [Int.natAbs_pow] : ((10 : ℤ) ^ k).natAbs ∣ d.coefficient.natAbs)
      exact ⟨m, (hvalue m).mpr (by rw [hm, mul_comm])⟩
    · rintro ⟨m, hm⟩
      have hdvd : (10 : ℤ) ^ k ∣ d.coefficient := ⟨m, by rw [(hvalue m).mp hm, mul_comm]⟩
      have habs := Int.natAbs_dvd_natAbs.mpr hdvd
      rwa [Int.natAbs_pow] at habs

/-- An instrument whose classification is handled, listed under a market's code. -/
structure Supported (i : InstrumentFacts) : Prop where
  classified : ∃ c ∈ orderClassifications, i.classification = some c
  listed : ∃ market symbol, i.code.toList = market ++ '.' :: symbol ∧ '.' ∉ market ∧ symbol ≠ []

def marketOf (code : String) : String := String.ofList ((code.toList.takeWhile (· ≠ '.')).map Char.toUpper)

/-- The decimal places that a value above zero may have. -/
def placesOf (i : InstrumentFacts) (q : ℚ) : ℕ :=
  if marketOf i.code = "US" then if i.equity ∧ q < 1 then 4 else 2
  else if marketOf i.code ∈ ["SH", "SZ"] ∧ i.equity then 2
  else 3

/-- The number that a value of a request denotes, where one is given. -/
inductive Supplied : Value → Option ℚ → Prop
  | none : Supplied .null none
  | number (d : Decimal) : Supplied (.number (.finite d)) (some d.value)
  | text {s : String} {d : Decimal} (h : Text.toNumeral s = some (.finite d)) : Supplied (.text s) (some d.value)

theorem Supplied.number_ok {v : Value} (h : Supplied v (some q)) :
    ∃ d : Decimal, d.value = q ∧ v.isNull = false ∧ ∀ operation field, OrderRules.number operation field v = .ok d := by
  cases h with
  | number d => exact ⟨d, rfl, rfl, fun _ _ => rfl⟩
  | text h => exact ⟨_, rfl, rfl, fun _ _ => by rw [OrderRules.number, h]⟩

theorem takeWhile_listed {market symbol : List Char} (h : '.' ∉ market) :
    (market ++ '.' :: symbol).takeWhile (· ≠ '.') = market := by
  rw [List.takeWhile_append_of_pos]
  · simp
  · exact fun c hc => decide_eq_true (fun he => h (he ▸ hc))

theorem Supported.prefixed {i : InstrumentFacts} (h : Supported i) :
    i.code.toList.drop ((i.code.toList.takeWhile (· ≠ '.')).length + 1) ≠ [] := by
  obtain ⟨market, symbol, hcode, hdot, hne⟩ := h.listed
  rw [hcode, takeWhile_listed hdot, List.drop_append, List.drop_of_length_le (by omega)]
  simpa using hne

theorem Supported.classification_any {i : InstrumentFacts} (h : Supported i) :
    i.classification.any (· ∈ orderClassifications) = true := by
  obtain ⟨c, hc, hi⟩ := h.classified
  rw [hi]
  exact decide_eq_true hc

/-- The checks of the instrument itself are passed, so its market decides. -/
theorem summary_supported {i : InstrumentFacts} (hi : Supported i) (v : Value) : instrumentRuleSummary i v =
    if marketOf i.code = "US" ∧ i.equity = true then
      if v.isNull then .ok ⟨none, none⟩
      else number "instrument rules" "price" v >>= fun d =>
        .ok (if d.value < 1 then ⟨some 4, some "0.0001"⟩ else ⟨some 2, some "0.01"⟩)
    else if marketOf i.code = "US" then .ok ⟨some 2, none⟩
    else if marketOf i.code ∈ ["SH", "SZ"] ∧ i.equity = true then .ok ⟨some 2, some "0.01"⟩
    else .ok ⟨some 3, none⟩ := by
  have hlisted := decide_eq_true hi.prefixed
  unfold instrumentRuleSummary
  rw [hi.classification_any]
  simp only [hlisted]
  rfl

/-- A supported instrument has a rule for every number, and for none. -/
theorem summary_number {i : InstrumentFacts} (hi : Supported i) {v : Value} (hv : Supplied v (some q)) :
    ∃ g, instrumentRuleSummary i v = .ok g ∧ g.places = some (placesOf i q) := by
  obtain ⟨d, hd, hnull, hnumber⟩ := hv.number_ok
  rw [summary_supported hi, hnull, hnumber, placesOf]
  by_cases hus : marketOf i.code = "US"
  · by_cases heq : i.equity = true
    · rw [if_pos ⟨hus, heq⟩, if_pos hus]
      by_cases hlt : d.value < 1
      · exact ⟨⟨some 4, some "0.0001"⟩, congrArg Except.ok (if_pos hlt), by rw [if_pos ⟨heq, hd ▸ hlt⟩]⟩
      · exact ⟨⟨some 2, some "0.01"⟩, congrArg Except.ok (if_neg hlt), by rw [if_neg (fun h => hlt (hd ▸ h.2))]⟩
    · rw [if_neg (fun h => heq h.2), if_pos hus, if_pos hus, if_neg (fun h => heq h.1)]
      exact ⟨_, rfl, rfl⟩
  · rw [if_neg (fun h => hus h.1), if_neg hus, if_neg hus]
    split
    · exact ⟨_, rfl, rfl⟩
    · exact ⟨_, rfl, rfl⟩

theorem summary_null {i : InstrumentFacts} (hi : Supported i) : ∃ g, instrumentRuleSummary i .null = .ok g := by
  rw [summary_supported hi]
  by_cases hus : marketOf i.code = "US" ∧ i.equity = true
  · rw [if_pos hus]
    exact ⟨_, rfl⟩
  · rw [if_neg hus]
    split
    · exact ⟨_, rfl⟩
    · split
      · exact ⟨_, rfl⟩
      · exact ⟨_, rfl⟩

/-- What a supplied number has to meet at its instrument. -/
def OnTick (i : InstrumentFacts) (q : ℚ) : Prop := 0 ≤ q ∧ (q ≠ 0 → Multiple (placesOf i q) q)

variable {operation field requested : String} {i : InstrumentFacts} {v : Value}

theorem onGrid_null : onGrid operation field i requested .null = .ok () := rfl

theorem onGrid_ok (hi : Supported i) (hv : Supplied v (some q)) : onGrid operation field i requested v = .ok () ↔
    OnTick i q ∧ (q = 0 → field = "price" → requested ∉ fixedLimitTypes) := by
  obtain ⟨d, hd, hnull, hnumber⟩ := hv.number_ok
  subst hd
  unfold onGrid
  rw [hnull, if_neg Bool.false_ne_true, hnumber]
  show (check (decide (0 ≤ d.value)) _ >>= _) = .ok () ↔ _
  rw [check_bind_ok, decide_eq_true_iff, OnTick, and_assoc]
  refine and_congr_right (fun _ => ?_)
  by_cases hz : d.value = 0
  · rw [if_pos hz, check_ok, decide_eq_true_iff]
    exact ⟨fun h => ⟨fun hne => absurd hz hne, fun _ hf => h.resolve_left (fun hne => hne hf)⟩,
      fun h => Decidable.or_iff_not_imp_left.mpr (fun hf => h.2 hz (not_not.mp hf))⟩
  · obtain ⟨g, hg, hplaces⟩ := summary_number hi (.number d)
    rw [if_neg hz, hg]
    show check _ _ = .ok () ↔ _
    rw [check_ok, hplaces, Option.any_some, Bool.not_eq_true', onGrid_iff]
    exact ⟨fun h => ⟨fun _ => h, fun he => absurd he hz⟩, fun h => h.1 hz⟩

/-- A positive whole number, of whatever numeric type. -/
def PositiveWhole (qty : Value) : Prop := ∃ (d : Decimal) (n : ℕ), qty = .number (.finite d) ∧ 0 < n ∧ d.value = n

theorem whole_iff (q : ℚ) : (0 < q ∧ q.den = 1) ↔ ∃ n : ℕ, 0 < n ∧ q = n := by
  constructor
  · rintro ⟨hpos, hden⟩
    have hnum : 0 < q.num := Rat.num_pos.mpr hpos
    have hq : q = q.num := by conv_lhs => rw [← Rat.num_div_den q, hden, Nat.cast_one, div_one]
    refine ⟨q.num.toNat, by omega, ?_⟩
    conv_lhs => rw [hq, ← Int.toNat_of_nonneg hnum.le]
    exact Int.cast_natCast _
  · rintro ⟨n, hn, rfl⟩
    exact ⟨by exact_mod_cast hn, Rat.den_natCast n⟩

theorem wholeQuantity_ok {qty : Value} : (∃ n, wholeQuantity operation qty = .ok n) ↔ PositiveWhole qty := by
  constructor
  · rintro ⟨n, h⟩
    cases qty with
    | number m =>
        cases m with
        | finite d =>
            obtain ⟨hwhole, -⟩ := check_bind_ok.mp h
            obtain ⟨k, hk, hd⟩ := (whole_iff d.value).mp (of_decide_eq_true hwhole)
            exact ⟨d, k, rfl, hk, hd⟩
        | nonFinite => cases h
    | null | bool | text | list | object => cases h
  · rintro ⟨d, n, rfl, hn, hd⟩
    exact ⟨_, check_bind_ok.mpr ⟨decide_eq_true ((whole_iff d.value).mpr ⟨n, hn, hd⟩), rfl⟩⟩

/-- What is accepted, in terms of the numbers alone. -/
structure Accepted (i : InstrumentFacts) (requested : String) (qty : Value) (price trigger : Option ℚ) : Prop where
  quantity : PositiveWhole qty
  price : ∀ q, price = some q → OnTick i q ∧ (q = 0 → requested ∉ fixedLimitTypes)
  trigger : ∀ q, trigger = some q → OnTick i q

theorem summary_ok (hi : Supported i) {p : Option ℚ} (hv : Supplied v p) : ∃ g, instrumentRuleSummary i v = .ok g := by
  cases hv with
  | none => exact summary_null hi
  | number d => exact (summary_number hi (.number d)).imp (fun _ h => h.1)
  | text h => exact (summary_number hi (.text h)).imp (fun _ h => h.1)

theorem onGrid_supplied (hi : Supported i) {p : Option ℚ} (hv : Supplied v p) :
    onGrid operation field i requested v = .ok () ↔
      ∀ q, p = some q → OnTick i q ∧ (q = 0 → field = "price" → requested ∉ fixedLimitTypes) := by
  cases p with
  | none =>
      cases hv
      exact iff_of_true onGrid_null nofun
  | some q =>
      rw [onGrid_ok hi hv]
      exact ⟨fun h _ he => Option.some.inj he ▸ h, fun h => h q rfl⟩

theorem validate_iff {orderType qty price aux : Value} {p a : Option ℚ} (hi : Supported i)
    (ht : requestedType orderType ∈ fixedLimitTypes ++ noFixedLimitTypes) (hp : Supplied price p) (ha : Supplied aux a) :
    validateInstrumentOrder operation i qty orderType price aux = .ok () ↔
      Accepted i (requestedType orderType) qty p a := by
  obtain ⟨g, hg⟩ := summary_ok hi hp
  have hprice : onGrid operation "price" i (requestedType orderType) price = .ok () ↔
      ∀ q, p = some q → OnTick i q ∧ (q = 0 → requestedType orderType ∉ fixedLimitTypes) := by
    rw [onGrid_supplied hi hp]
    exact forall₂_congr (fun q _ => and_congr_right (fun _ => ⟨fun h hz => h hz rfl, fun h hz _ => h hz⟩))
  have htrigger : onGrid operation "aux_price" i (requestedType orderType) aux = .ok () ↔ ∀ q, a = some q → OnTick i q := by
    rw [onGrid_supplied hi ha]
    exact forall₂_congr (fun q _ => ⟨fun h => h.1, fun h => ⟨h, fun _ hf => absurd hf (by decide)⟩⟩)
  unfold validateInstrumentOrder
  rw [check_bind_ok, decide_eq_true_iff, Checks.bind_ok]
  constructor
  · rintro ⟨-, n, hn, h⟩
    obtain ⟨_, -, h⟩ := Checks.bind_ok.mp h
    obtain ⟨_, hpr, htr⟩ := Checks.bind_ok.mp h
    exact ⟨wholeQuantity_ok.mp ⟨n, hn⟩, hprice.mp hpr, htrigger.mp htr⟩
  · rintro ⟨hq, hpr, htr⟩
    obtain ⟨n, hn⟩ := wholeQuantity_ok.mpr hq
    refine ⟨ht, n, hn, Checks.bind_ok.mpr ⟨g, hg, ?_⟩⟩
    exact Checks.bind_ok.mpr ⟨(), hprice.mpr hpr, htrigger.mpr htr⟩

def penny : InstrumentFacts := { code := "us.SNDL", classification := some "STOCK" }

theorem penny_supported : Supported penny :=
  ⟨⟨"STOCK", by decide, rfl⟩, ⟨"us".toList, "SNDL".toList, by decide, by decide, by decide⟩⟩

end OrderRules

end MoomooMcp
