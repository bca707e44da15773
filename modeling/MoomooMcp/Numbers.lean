import Mathlib.Data.Int.Log
import Mathlib.Data.List.TakeWhile
import MoomooMcp.Intent

namespace MoomooMcp

namespace Decimal

/-- The exponent of the last binary place of the doubles next to a number. -/
def lastPlace (q : ℚ) : ℤ := max (Int.log 2 |q| - 52) (-1074)

/-- The nearest double, of two equally near ones the even one. -/
def nearestDouble (q : ℚ) : ℚ := roundHalfEven (q / 2 ^ lastPlace q) * 2 ^ lastPlace q

def largestDouble : ℚ := (2 ^ 53 - 1) * 2 ^ 971

def significant (q : ℚ) (n : ℕ) : Decimal where
  coefficient := roundHalfEven (q / 10 ^ (Int.log 10 |q| - (n - 1)))
  exponent := Int.log 10 |q| - (n - 1)

/-- The same number of digits, not nearer to zero. -/
def outward (q : ℚ) (n : ℕ) : Decimal :=
  let exponent := Int.log 10 |q| - (n - 1)
  ⟨if q < 0 then ⌊q / 10 ^ exponent⌋ else ⌈q / 10 ^ exponent⌉, exponent⟩

/-- The fewest digits that lead back to a double. Next to a power of two the doubles
lie closer on the side of zero, and the nearest digits may miss it there. -/
def shortest (x : ℚ) : Decimal :=
  (((List.range 16).flatMap (fun n => [significant x (n + 1), outward x (n + 1)])).find?
    (fun d => nearestDouble d.value = x)).getD (significant x 17)

/-- A float has a fraction, or its exponent is written. So its decimal never has
the exponent of an integer, which is zero. -/
def spelled (d : Decimal) : Decimal :=
  if d.exponent = 0 ∨ (0 < d.exponent ∧ d.adjusted < 16) then ⟨d.rescale (-1), -1⟩ else d

def isInt (d : Decimal) : Bool := d.exponent = 0

theorem value_of_int {d : Decimal} (h : d.isInt = true) : d.value = d.coefficient := by
  have he : d.exponent = 0 := of_decide_eq_true h
  rw [value, he, zpow_zero, mul_one]

/-- `float(number)`. -/
def toFloat (d : Decimal) : Numeral :=
  let x := nearestDouble d.value
  if largestDouble < |x| then .nonFinite else .finite (shortest x).spelled

def digitChars (d : Decimal) : List Char := Nat.toDigits 10 d.coefficient.natAbs

/-- The digits with their leading zeros, at least one before the decimal point. -/
def padded (d : Decimal) : List Char :=
  List.replicate ((-d.exponent).toNat + 1 - d.digitChars.length) '0' ++ d.digitChars

def positional (d : Decimal) : List Char :=
  if d.exponent = 0 then d.digitChars
  else
    d.padded.take (d.padded.length - (-d.exponent).toNat) ++
      '.' :: d.padded.drop (d.padded.length - (-d.exponent).toNat)

def scientific (d : Decimal) : List Char :=
  let digits := (d.digitChars.reverse.dropWhile (· = '0')).reverse
  let exponent := Nat.toDigits 10 d.adjusted.natAbs
  digits.take 1 ++ (if digits.length ≤ 1 then [] else '.' :: digits.drop 1) ++
    'e' :: (if d.adjusted < 0 then '-' else '+') :: (List.replicate (2 - exponent.length) '0' ++ exponent)

/-- `str(number)`, of an integer or of a float. -/
def text (d : Decimal) : String :=
  let sign := if d.coefficient < 0 then ['-'] else []
  if d.exponent = 0 ∨ (d.exponent < 0 ∧ -5 < d.adjusted ∧ d.adjusted < 16) then String.ofList (sign ++ d.positional)
  else String.ofList (sign ++ d.scientific)

/-- `str(Decimal)`, which shows the coefficient with all its zeros. -/
def str (d : Decimal) : String :=
  let sign := if d.coefficient < 0 then ['-'] else []
  if d.exponent ≤ 0 ∧ -7 < d.adjusted then String.ofList (sign ++ d.positional)
  else
    let fraction := if d.digitChars.length ≤ 1 then [] else '.' :: d.digitChars.drop 1
    let exponent := (if d.adjusted < 0 then '-' else '+') :: Nat.toDigits 10 d.adjusted.natAbs
    String.ofList (sign ++ d.digitChars.take 1 ++ fraction ++ 'E' :: exponent)

theorem spelled_value (d : Decimal) : d.spelled.value = d.value := by
  unfold spelled
  split
  · exact value_at (by omega)
  · rfl

end Decimal

namespace Text

def digitsValue (cs : List Char) : ℕ := Nat.ofDigitChars 10 cs 0

/-- Whether every underscore stands between two digits. -/
def underscored : List Char → Bool
  | a :: '_' :: b :: cs => a.isDigit && b.isDigit && underscored (b :: cs)
  | '_' :: _ | [_, '_'] => false
  | _ :: cs => underscored cs
  | [] => true

def signed (cs : List Char) : Bool × List Char :=
  match cs with
  | '-' :: rest => (true, rest)
  | '+' :: rest => (false, rest)
  | rest => (false, rest)

def applySign (negative : Bool) (n : ℕ) : ℤ := if negative then -n else n

/-- `int(text)`. -/
def toInt (text : String) : Option ℤ :=
  let cs := strip text.toList
  let (negative, rest) := signed cs
  let digits := rest.filter (· ≠ '_')
  if !underscored cs || digits.isEmpty || !digits.all Char.isDigit || 4300 < digits.length then none
  else some (applySign negative (digitsValue digits))

/-- The exponent part of a numeral, at the end of the text. -/
def exponentPart : List Char → Option ℤ
  | [] => some 0
  | 'e' :: cs | 'E' :: cs =>
      let (negative, digits) := signed cs
      if digits.isEmpty || !digits.all Char.isDigit then none else some (applySign negative (digitsValue digits))
  | _ => none

def fractionPart : List Char → List Char × List Char
  | '.' :: cs => (cs.takeWhile Char.isDigit, cs.dropWhile Char.isDigit)
  | cs => ([], cs)

def unsignedNumeral (cs : List Char) : Option Decimal :=
  let whole := cs.takeWhile Char.isDigit
  let (fraction, rest) := fractionPart (cs.dropWhile Char.isDigit)
  if whole.isEmpty && fraction.isEmpty then none
  else (exponentPart rest).map (fun e => ⟨digitsValue (whole ++ fraction), e - fraction.length⟩)

/-- The number a text denotes to `float`, which rounds it afterwards. -/
def toNumeral (text : String) : Option Numeral :=
  let cs := strip text.toList
  let (negative, rest) := signed cs
  if ["inf", "infinity", "nan"].contains (String.ofList (rest.map Char.toLower)) then some .nonFinite
  else if !underscored cs then none
  else (unsignedNumeral (rest.filter (· ≠ '_'))).map
    (fun d => .finite { d with coefficient := if negative then -d.coefficient else d.coefficient })

/-- A numeral of digits with at most one decimal point between them. -/
def plainDecimal (cs : List Char) : Option Decimal :=
  let whole := cs.takeWhile Char.isDigit
  match cs.dropWhile Char.isDigit with
  | [] => if whole.isEmpty then none else some ⟨digitsValue whole, 0⟩
  | '.' :: fraction =>
      if whole.isEmpty || fraction.isEmpty || !fraction.all Char.isDigit then none
      else some ⟨digitsValue (whole ++ fraction), -fraction.length⟩
  | _ => none

theorem strip_of_solid {cs : List Char} (h : ∀ c ∈ cs, isSpace c = false) : strip cs = cs := by
  have hdrop : ∀ ds : List Char, (∀ c ∈ ds, isSpace c = false) → ds.dropWhile isSpace = ds := by
    intro ds hds
    cases ds with
    | nil => rfl
    | cons c ds => exact List.dropWhile_cons_of_neg (by simp [hds c List.mem_cons_self])
  rw [strip, hdrop cs h, hdrop cs.reverse (fun c hc => h c (List.mem_reverse.mp hc)), List.reverse_reverse]

/-- The characters of a plain decimal. -/
def isPlain (c : Char) : Bool := c.isDigit || c = '.'

theorem isPlain_range {c : Char} (h : isPlain c = true) : 46 ≤ c.toNat ∧ c.toNat ≤ 57 := by
  rcases Bool.or_eq_true_iff.mp h with hd | hp
  · exact ⟨le_trans (by decide) (Char.isDigit_iff_toNat.mp hd).1, (Char.isDigit_iff_toNat.mp hd).2⟩
  · rw [of_decide_eq_true hp]
    decide

theorem isPlain_solid {c : Char} (h : isPlain c = true) : isSpace c = false := by
  have hr := isPlain_range h
  simp only [isSpace, List.contains_eq_mem, List.mem_cons, List.not_mem_nil, or_false]
  simp only [Bool.or_eq_false_iff, Bool.and_eq_false_iff, decide_eq_false_iff_not]
  omega

theorem underscored_of_plain {cs : List Char} (h : ∀ c ∈ cs, isPlain c = true) : underscored cs = true := by
  have hne : ∀ c ∈ cs, c ≠ '_' := by
    intro c hc he
    subst c
    exact absurd (h '_' hc) (by decide)
  clear h
  induction cs using underscored.induct with
  | case1 a b cs ih => exact absurd rfl (hne '_' (by simp))
  | case2 cs => exact absurd rfl (hne '_' (by simp))
  | case3 a => exact absurd rfl (hne '_' (by simp))
  | case4 c cs h1 h2 h3 ih =>
      rw [underscored.eq_4 c cs h1 h2 h3]
      exact ih (fun c hc => hne c (List.mem_cons_of_mem _ hc))
  | case5 => rfl

/-- What a plain decimal is made of. -/
structure PlainParts (cs : List Char) (d : Decimal) (whole fraction : List Char) : Prop where
  whole_ne : whole ≠ []
  whole_digits : ∀ c ∈ whole, c.isDigit = true
  fraction_digits : ∀ c ∈ fraction, c.isDigit = true
  split : cs = whole ∧ fraction = [] ∨ cs = whole ++ '.' :: fraction
  value : d = ⟨digitsValue (whole ++ fraction), -fraction.length⟩

theorem plainDecimal_parts {cs : List Char} {d : Decimal} (h : plainDecimal cs = some d) :
    ∃ whole fraction, PlainParts cs d whole fraction := by
  have hsplit := List.takeWhile_append_dropWhile (p := Char.isDigit) (l := cs)
  have hdigits : ∀ c ∈ cs.takeWhile Char.isDigit, c.isDigit = true := fun c hc => List.mem_takeWhile_imp hc
  unfold plainDecimal at h
  split at h
  · next hrest =>
      dsimp only at h
      split at h
      · cases h
      · next hne =>
          cases h
          rw [hrest, List.append_nil] at hsplit
          exact ⟨_, [], by simpa using hne, hdigits, nofun, .inl ⟨hsplit.symm, rfl⟩, by simp⟩
  · next fraction hrest =>
      dsimp only at h
      split at h
      · cases h
      · next hne =>
          cases h
          simp only [Bool.or_eq_true, not_or, List.isEmpty_iff, Bool.not_eq_true', Bool.not_eq_false,
            List.all_eq_true] at hne
          exact ⟨_, fraction, hne.1.1, hdigits, hne.2, .inr (by rw [← hrest]; exact hsplit.symm), rfl⟩
  · cases h

theorem PlainParts.plain {cs whole fraction : List Char} {d : Decimal} (h : PlainParts cs d whole fraction) :
    ∀ c ∈ cs, isPlain c = true := by
  intro c hc
  rcases h.split with ⟨he, _⟩ | he
  · rw [he] at hc
    simp [isPlain, h.whole_digits c hc]
  · rw [he, List.mem_append, List.mem_cons] at hc
    rcases hc with hw | rfl | hf
    · simp [isPlain, h.whole_digits c hw]
    · rfl
    · simp [isPlain, h.fraction_digits c hf]

theorem takeWhile_digits {whole : List Char} (rest : List Char) (hw : ∀ c ∈ whole, c.isDigit = true)
    (hr : ∀ c ∈ rest.head?, c.isDigit = false) :
    (whole ++ rest).takeWhile Char.isDigit = whole ∧ (whole ++ rest).dropWhile Char.isDigit = rest := by
  rw [List.takeWhile_append_of_pos hw, List.dropWhile_append_of_pos hw]
  cases rest with
  | nil => simp
  | cons c rest =>
      have hc : c.isDigit = false := hr c rfl
      simp [hc]

theorem PlainParts.unsigned {cs whole fraction : List Char} {d : Decimal} (h : PlainParts cs d whole fraction) :
    unsignedNumeral cs = some d := by
  rcases h.split with ⟨he, hf⟩ | he
  · have hparts := takeWhile_digits [] h.whole_digits nofun
    rw [List.append_nil, ← he] at hparts
    rw [unsignedNumeral, hparts.1, hparts.2, h.value, hf]
    simp [fractionPart, exponentPart, he, h.whole_ne]
  · have hparts := takeWhile_digits ('.' :: fraction) h.whole_digits (by simp)
    have hfraction := takeWhile_digits [] h.fraction_digits nofun
    rw [List.append_nil] at hfraction
    rw [← he] at hparts
    rw [unsignedNumeral, hparts.1, hparts.2, h.value]
    simp [fractionPart, exponentPart, hfraction.1, hfraction.2, h.whole_ne]

theorem PlainParts.head {cs whole fraction : List Char} {d : Decimal} (h : PlainParts cs d whole fraction) :
    ∃ c rest, cs = c :: rest ∧ c.isDigit = true := by
  obtain ⟨c, ws, hw⟩ := List.exists_cons_of_ne_nil h.whole_ne
  have hc : c.isDigit = true := h.whole_digits c (by simp [hw])
  rcases h.split with ⟨he, _⟩ | he
  · exact ⟨c, ws, by rw [he, hw], hc⟩
  · exact ⟨c, ws ++ '.' :: fraction, by rw [he, hw, List.cons_append], hc⟩

theorem signed_of_digit {c : Char} {cs : List Char} (h : c.isDigit = true) : signed (c :: cs) = (false, c :: cs) := by
  unfold signed
  split
  · next he => cases he; exact absurd h (by decide)
  · next he => cases he; exact absurd h (by decide)
  · rfl

theorem toLower_of_digit {c : Char} (h : c.isDigit = true) : c.toLower = c := by
  have hr := (Char.isDigit_iff_toNat.mp h).2
  refine dif_neg fun hc => ?_
  have hge : 65 ≤ c.toNat := hc.1
  exact absurd (le_trans hge hr) (by decide)

/-- A plain decimal denotes the same number to `float` as to `Decimal`. -/
theorem toNumeral_of_plain {cs : List Char} {d : Decimal} (h : plainDecimal cs = some d) :
    toNumeral (String.ofList cs) = some (.finite d) := by
  obtain ⟨whole, fraction, hp⟩ := plainDecimal_parts h
  obtain ⟨c, rest, hcs, hc⟩ := hp.head
  have hsigned : signed cs = (false, cs) := by rw [hcs]; exact signed_of_digit hc
  have hname : ["inf", "infinity", "nan"].contains (String.ofList (cs.map Char.toLower)) = false := by
    rw [hcs, List.map_cons, toLower_of_digit hc]
    simp only [List.contains_eq_mem, List.mem_cons, List.not_mem_nil, or_false, ← String.toList_inj,
      String.toList_ofList, decide_eq_false_iff_not]
    rintro (he | he | he) <;> injection he with he _ <;> subst c <;> exact absurd hc (by decide)
  have hfilter : cs.filter (· ≠ '_') = cs := by
    refine List.filter_eq_self.mpr (fun a ha => ?_)
    have := hp.plain a ha
    simp only [decide_eq_true_eq]
    rintro rfl
    exact absurd this (by decide)
  rw [toNumeral, String.toList_ofList, strip_of_solid (fun a ha => isPlain_solid (hp.plain a ha)), hsigned]
  simp only [hname, underscored_of_plain hp.plain, hfilter, hp.unsigned]
  simp

theorem plainDecimal_digits {whole : List Char} (hne : whole ≠ []) (hw : ∀ c ∈ whole, c.isDigit = true) :
    plainDecimal whole = some ⟨digitsValue whole, 0⟩ := by
  have hparts := takeWhile_digits [] hw nofun
  rw [List.append_nil] at hparts
  rw [plainDecimal, hparts.1, hparts.2]
  simp [hne]

theorem plainDecimal_point {whole fraction : List Char} (hne : whole ≠ []) (hw : ∀ c ∈ whole, c.isDigit = true)
    (hfne : fraction ≠ []) (hf : ∀ c ∈ fraction, c.isDigit = true) :
    plainDecimal (whole ++ '.' :: fraction) = some ⟨digitsValue (whole ++ fraction), -fraction.length⟩ := by
  have hparts := takeWhile_digits ('.' :: fraction) hw (by simp)
  rw [plainDecimal, hparts.1, hparts.2]
  simpa [hne, hfne] using hf

end Text

namespace Decimal

open Text

theorem digitChars_digits (d : Decimal) : ∀ c ∈ d.digitChars, c.isDigit = true :=
  fun _ hc => Nat.isDigit_of_mem_toDigits (by decide) (by decide) hc

theorem padded_digits (d : Decimal) : ∀ c ∈ d.padded, c.isDigit = true := by
  intro c hc
  rcases List.mem_append.mp hc with hz | hd
  · rw [List.eq_of_mem_replicate hz]
    rfl
  · exact d.digitChars_digits c hd

theorem padded_value (d : Decimal) : digitsValue d.padded = d.coefficient.natAbs := by
  rw [padded, digitsValue, Nat.ofDigitChars_append, Nat.ofDigitChars_replicate_zero, Nat.mul_zero]
  exact Nat.ofDigitChars_ten_toDigits

theorem padded_length (d : Decimal) : (-d.exponent).toNat + 1 ≤ d.padded.length := by
  rw [padded, List.length_append, List.length_replicate]
  omega

/-- Positional notation reads back as the same coefficient and exponent. -/
theorem plainDecimal_positional {d : Decimal} (h : d.exponent ≤ 0) :
    plainDecimal d.positional = some ⟨d.coefficient.natAbs, d.exponent⟩ := by
  unfold positional
  split
  · next he =>
      have hne : d.digitChars ≠ [] := Nat.toDigits_ne_nil
      rw [plainDecimal_digits hne d.digitChars_digits, digitChars, digitsValue, Nat.ofDigitChars_ten_toDigits, he]
  · next he =>
      have hlen := d.padded_length
      have hdigits := d.padded_digits
      have hwhole : d.padded.take (d.padded.length - (-d.exponent).toNat) ≠ [] :=
        List.ne_nil_of_length_pos (by rw [List.length_take]; omega)
      have hfraction : d.padded.drop (d.padded.length - (-d.exponent).toNat) ≠ [] :=
        List.ne_nil_of_length_pos (by rw [List.length_drop]; omega)
      rw [plainDecimal_point hwhole (fun c hc => hdigits c (List.mem_of_mem_take hc)) hfraction
        (fun c hc => hdigits c (List.mem_of_mem_drop hc)), List.take_append_drop, padded_value, List.length_drop]
      congr 2
      omega

theorem scientific_marked (d : Decimal) : 'e' ∈ d.scientific := by
  simp [scientific]

/-- What a plain decimal reads in the text of a number is that number. -/
theorem plainDecimal_text {d d' : Decimal} (h : plainDecimal d.text.toList = some d') : d' = d := by
  obtain ⟨whole, fraction, hp⟩ := plainDecimal_parts h
  have hplain : ∀ c ∈ d.text.toList, isPlain c = true := hp.plain
  unfold text at h hplain
  by_cases hneg : d.coefficient < 0
  · have hsign : isPlain '-' = true := hplain '-' (by simp only [hneg, if_true]; split <;> simp)
    exact absurd hsign (by decide)
  · simp only [hneg, if_false, List.nil_append] at h hplain
    split at h
    · next hpos =>
        rw [String.toList_ofList, plainDecimal_positional (by omega)] at h
        cases h
        cases d with
        | mk c e => simp only [Decimal.mk.injEq, and_true]; simp only at hneg; omega
    · next hpos =>
        rw [if_neg hpos, String.toList_ofList] at hplain
        exact absurd (hplain 'e' d.scientific_marked) (by decide)

end Decimal

end MoomooMcp
