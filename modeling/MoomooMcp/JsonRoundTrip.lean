import MoomooMcp.Json

namespace MoomooMcp.Json

open Intent Text Decimal

variable {d : Decimal} {r : List Char}

theorem unsigned_positional (h : d.exponent ≤ 0) : unsignedNumeral d.positional = some ⟨d.coefficient.natAbs, d.exponent⟩ := by
  obtain ⟨whole, fraction, hp⟩ := plainDecimal_parts (plainDecimal_positional h)
  exact hp.unsigned

/-- An exponent as it is written, with its sign and at least two digits. -/
def exponentText (z : ℤ) : List Char :=
  'e' :: (if z < 0 then '-' else '+') ::
    (List.replicate (2 - (Nat.toDigits 10 z.natAbs).length) '0' ++ Nat.toDigits 10 z.natAbs)

/-- An exponent reads back behind either mark, whatever zeros stand before its digits. -/
theorem exponentPart_signed {mark : Char} (hmark : mark = 'e' ∨ mark = 'E') (k : ℕ) (z : ℤ) :
    exponentPart (mark :: (if z < 0 then '-' else '+') :: (List.replicate k '0' ++ Nat.toDigits 10 z.natAbs)) =
      some z := by
  have hdigits : ∀ c ∈ List.replicate k '0' ++ Nat.toDigits 10 z.natAbs, c.isDigit = true := by
    intro c hc
    rcases List.mem_append.mp hc with hz | hd
    · rw [List.eq_of_mem_replicate hz]
      rfl
    · exact Nat.isDigit_of_mem_toDigits (by decide) (by decide) hd
  have hvalue : digitsValue (List.replicate k '0' ++ Nat.toDigits 10 z.natAbs) = z.natAbs := by
    rw [digitsValue, Nat.ofDigitChars_append, Nat.ofDigitChars_replicate_zero, Nat.mul_zero, Nat.ofDigitChars_ten_toDigits]
  have hall : (List.replicate k '0' ++ Nat.toDigits 10 z.natAbs).all Char.isDigit = true := List.all_eq_true.mpr hdigits
  by_cases hneg : z < 0
  · rcases hmark with rfl | rfl <;> simp only [exponentPart, if_pos hneg, signed, hall, hvalue, applySign] <;>
      simp [Nat.toDigits_ne_nil, abs_of_neg hneg]
  · rcases hmark with rfl | rfl <;> simp only [exponentPart, if_neg hneg, signed, hall, hvalue, applySign] <;>
      simp [Nat.toDigits_ne_nil, abs_of_nonneg (not_lt.mp hneg)]

theorem exponentPart_text (z : ℤ) : exponentPart (exponentText z) = some z :=
  exponentPart_signed (.inl rfl) _ z

def pointed (fraction : List Char) : List Char := if fraction = [] then [] else '.' :: fraction

theorem pointed_head {rest : List Char} (fraction : List Char) (hr : ∀ c ∈ rest.head?, c.isDigit = false ∧ c ≠ '.') :
    ∀ c ∈ (pointed fraction ++ rest).head?, c.isDigit = false := by
  unfold pointed
  by_cases he : fraction = []
  · simpa [he] using fun c hc => (hr c hc).1
  · simp [he]

theorem fractionPart_pointed {fraction rest : List Char} (hf : ∀ c ∈ fraction, c.isDigit = true)
    (hr : ∀ c ∈ rest.head?, c.isDigit = false ∧ c ≠ '.') : fractionPart (pointed fraction ++ rest) = (fraction, rest) := by
  unfold pointed
  by_cases he : fraction = []
  · cases rest with
    | nil => simp [he, fractionPart]
    | cons c rest =>
        have hdot : c ≠ '.' := (hr c (by simp)).2
        simp only [he, if_true, List.nil_append]
        unfold fractionPart
        split
        · next heq => exact absurd (List.cons.inj heq).1 hdot
        · rfl
  · have hparts := takeWhile_digits rest hf (fun c hc => (hr c hc).1)
    simp [he, fractionPart, hparts]

/-- One digit, a fraction and an exponent. -/
theorem unsigned_pointed {c : Char} {fraction rest : List Char} {e : ℤ} (hdigit : ∀ x ∈ c :: fraction, x.isDigit = true)
    (hr : ∀ c ∈ rest.head?, c.isDigit = false ∧ c ≠ '.') (he : exponentPart rest = some e) :
    unsignedNumeral ([c] ++ (pointed fraction ++ rest)) = some ⟨digitsValue (c :: fraction), e - fraction.length⟩ := by
  have hwhole := takeWhile_digits _ (fun x hx => hdigit x (List.mem_cons.mpr (.inl (List.mem_singleton.mp hx))))
    (pointed_head fraction hr)
  have hfraction := fractionPart_pointed (fun x hx => hdigit x (List.mem_cons_of_mem _ hx)) hr
  rw [unsignedNumeral, hwhole.1, hwhole.2, hfraction]
  simp [he]

/-- The digits of a numeral: it begins with one, and has nothing that a numeral cannot have. -/
structure Digits (cs : List Char) : Prop where
  head : ∃ c rest, cs = c :: rest ∧ c.isDigit = true
  chars : ∀ c ∈ cs, isNumberChar c = true

theorem isNumberChar_digit {c : Char} (h : c.isDigit = true) : isNumberChar c = true := by
  simp [isNumberChar, h]

theorem digits_positional (d : Decimal) : Digits d.positional := by
  unfold positional
  split
  · have hne : d.digitChars ≠ [] := Nat.toDigits_ne_nil
    obtain ⟨c, cs, hc⟩ := List.exists_cons_of_ne_nil hne
    exact ⟨⟨c, cs, hc, d.digitChars_digits c (by simp [hc])⟩, fun c hc => isNumberChar_digit (d.digitChars_digits c hc)⟩
  · obtain ⟨c, cs, hc⟩ := List.exists_cons_of_ne_nil d.wholePart_ne
    refine ⟨⟨c, cs ++ '.' :: d.fractionDigits, ?_, d.wholePart_digits c (by simp [hc])⟩, fun x hx => ?_⟩
    · change d.wholePart ++ _ = _
      rw [hc]
      rfl
    · rcases List.mem_append.mp hx with hw | hf
      · exact isNumberChar_digit (d.wholePart_digits x hw)
      · rcases List.mem_cons.mp hf with rfl | hf
        · rfl
        · exact isNumberChar_digit (d.fractionDigits_digits x hf)

theorem exponentText_chars (z : ℤ) : ∀ c ∈ exponentText z, isNumberChar c = true := by
  intro c hc
  unfold exponentText at hc
  rcases List.mem_cons.mp hc with rfl | hc
  · rfl
  rcases List.mem_cons.mp hc with rfl | hc
  · by_cases hz : z < 0
    · rw [if_pos hz]
      rfl
    · rw [if_neg hz]
      rfl
  rcases List.mem_append.mp hc with hz | hd
  · rw [List.eq_of_mem_replicate hz]
    rfl
  · exact isNumberChar_digit (Nat.isDigit_of_mem_toDigits (by decide) (by decide) hd)

/-- Scientific notation, which leaves out the zeros at the end, reads back as the same magnitude. -/
theorem unsigned_scientific (h : d.coefficient ≠ 0) :
    Digits d.scientific ∧
      ∃ u, unsignedNumeral d.scientific = some u ∧ u.value = d.coefficient.natAbs * 10 ^ d.exponent := by
  obtain ⟨k, hk⟩ := dropZeros_append d.digitChars
  obtain ⟨c, ds, hds⟩ : ∃ c ds, dropZeros d.digitChars = c :: ds := by
    cases hz : dropZeros d.digitChars with
    | cons c ds => exact ⟨c, ds, rfl⟩
    | nil =>
        rw [hz, List.nil_append] at hk
        have hzero := d.digitChars_value
        rw [hk, digitsValue, Nat.ofDigitChars_replicate_zero, Nat.mul_zero] at hzero
        exact absurd (Int.natAbs_eq_zero.mp hzero.symm) h
  have hdigit : ∀ x ∈ c :: ds, x.isDigit = true := by
    intro x hx
    rw [← hds] at hx
    exact d.digitChars_digits x (mem_of_mem_dropZeros hx)
  have hvalue : digitsValue (c :: ds) * 10 ^ k = d.coefficient.natAbs := by
    rw [← digitsValue_zeros, ← hds, ← hk, d.digitChars_value]
  have hadjusted : d.adjusted = d.exponent + ds.length + k := by
    have hlen := d.digitChars_length
    rw [hk, hds, List.length_append, List.length_replicate, List.length_cons] at hlen
    rw [adjusted, ← hlen]
    push_cast
    ring
  have hmid : (if (c :: ds).length ≤ 1 then [] else '.' :: (c :: ds).drop 1) = pointed ds := by
    cases ds <;> simp [pointed]
  have htext : d.scientific = [c] ++ (pointed ds ++ exponentText d.adjusted) := by
    change (dropZeros d.digitChars).take 1 ++ (if (dropZeros d.digitChars).length ≤ 1 then [] else
      '.' :: (dropZeros d.digitChars).drop 1) ++ exponentText d.adjusted = _
    rw [hds, hmid, List.append_assoc]
    rfl
  refine ⟨⟨⟨c, _, htext, hdigit c List.mem_cons_self⟩, fun x hx => ?_⟩,
    ⟨digitsValue (c :: ds), d.adjusted - ds.length⟩, ?_, ?_⟩
  · rw [htext] at hx
    rcases List.mem_append.mp hx with hc | hx
    · exact isNumberChar_digit (hdigit x (List.mem_cons.mpr (.inl (List.mem_singleton.mp hc))))
    rcases List.mem_append.mp hx with hp | he
    · unfold pointed at hp
      split at hp
      · cases hp
      · rcases List.mem_cons.mp hp with rfl | hp
        · rfl
        · exact isNumberChar_digit (hdigit x (List.mem_cons_of_mem _ hp))
    · exact exponentText_chars _ x he
  · rw [htext]
    exact unsigned_pointed hdigit (by simp [exponentText]) (exponentPart_text _)
  · have hexp : d.adjusted - ds.length = d.exponent + k := by omega
    rw [value, hexp, zpow_add₀ (by norm_num : (10 : ℚ) ≠ 0), zpow_natCast, ← hvalue]
    push_cast
    ring

/-- A float is never taken for an integer. -/
theorem spelled_isInt (d : Decimal) : d.spelled.isInt = false := by
  unfold spelled
  split
  · rfl
  · next h => exact decide_eq_false (fun he => h (.inl he))

theorem numeralOf_signed {cs rest : List Char} {negative : Bool} {u : Decimal} (hs : signed cs = (negative, rest))
    (hu : unsignedNumeral rest = some u) : ∃ w, numeralOf cs = some w ∧
      w.value = (if negative then -u.value else u.value) ∧ w.isInt = (rest.all Char.isDigit && u.isInt) := by
  obtain ⟨c, hc⟩ : ∃ c : ℤ, c = if negative then -u.coefficient else u.coefficient := ⟨_, rfl⟩
  have hvalue : (⟨c, u.exponent⟩ : Decimal).value = if negative then -u.value else u.value := by
    rw [hc]
    cases negative <;> simp [value]
  have hnumeral : numeralOf cs = some (if rest.all Char.isDigit then ⟨c, u.exponent⟩ else
      (⟨c, u.exponent⟩ : Decimal).spelled) := by
    rw [numeralOf, hs, hc]
    simp only [hu, Option.map_some]
  refine ⟨_, hnumeral, ?_⟩
  cases rest.all Char.isDigit with
  | false => exact ⟨(spelled_value _).trans hvalue, spelled_isInt _⟩
  | true => exact ⟨hvalue, rfl⟩

/-- The text of a number: it begins with a digit or a minus sign, and denotes the number. -/
structure Numeric (cs : List Char) (d : Decimal) : Prop where
  head : ∃ c rest, cs = c :: rest ∧ (c.isDigit = true ∨ c = '-')
  chars : ∀ c ∈ cs, isNumberChar c = true
  denotes : ∃ u, numeralOf cs = some u ∧ u.value = d.value ∧ u.isInt = d.isInt

theorem Digits.numeric {cs : List Char} (h : Digits cs) {u : Decimal} (hu : unsignedNumeral cs = some u)
    (hv : u.value = d.coefficient.natAbs * 10 ^ d.exponent) (hi : (cs.all Char.isDigit && u.isInt) = d.isInt) :
    Numeric ((if d.coefficient < 0 then ['-'] else []) ++ cs) d := by
  obtain ⟨c, rest, rfl, hc⟩ := h.head
  by_cases hneg : d.coefficient < 0
  · have hs : signed ('-' :: c :: rest) = (true, c :: rest) := rfl
    obtain ⟨w, hw, hval, hint⟩ := numeralOf_signed hs hu
    rw [if_pos hneg]
    refine ⟨⟨'-', c :: rest, rfl, .inr rfl⟩, fun x hx => ?_, w, hw, ?_, hint.trans hi⟩
    · rcases List.mem_cons.mp hx with rfl | hx
      · rfl
      · exact h.chars x hx
    · rw [hval, if_pos rfl, hv, d.value_signed, if_pos hneg]
  · obtain ⟨w, hw, hval, hint⟩ := numeralOf_signed (signed_of_digit hc) hu
    rw [if_neg hneg]
    refine ⟨⟨c, rest, rfl, .inl hc⟩, h.chars, w, hw, ?_, hint.trans hi⟩
    rw [hval, if_neg Bool.false_ne_true, hv, d.value_signed, if_neg hneg]

/-- What is written of a number denotes it. -/
theorem numeric_text (d : Decimal) : Numeric (numberText (.finite d)) d := by
  rw [numberText]
  split
  · next hzero =>
      refine ⟨⟨'0', ['.', '0'], rfl, .inl rfl⟩, List.all_eq_true.mp rfl, ⟨0, -1⟩, rfl, ?_, by simp [isInt, hzero.2]⟩
      simp [value, hzero.1]
  · next hzero =>
      rw [Decimal.text]
      by_cases hpos : d.exponent = 0 ∨ (d.exponent < 0 ∧ -5 < d.adjusted ∧ d.adjusted < 16)
      · rw [if_pos hpos, String.toList_ofList]
        refine (digits_positional d).numeric (unsigned_positional (by omega)) rfl ?_
        by_cases hint : d.exponent = 0
        · have hall : d.positional.all Char.isDigit = true := by
            rw [positional, if_pos hint]
            exact List.all_eq_true.mpr d.digitChars_digits
          rw [hall]
          rfl
        · simp [isInt, hint]
      · rw [if_neg hpos, String.toList_ofList]
        have hne : d.coefficient ≠ 0 := fun hc => hzero ⟨hc, fun he => hpos (.inl he)⟩
        obtain ⟨hdigits, u, hu, hv⟩ := unsigned_scientific hne
        have hmarked : d.scientific.all Char.isDigit = false := by
          rw [List.all_eq_false]
          exact ⟨'e', d.scientific_marked, by decide⟩
        refine hdigits.numeric hu hv ?_
        rw [hmarked, Bool.false_and]
        exact (decide_eq_false (fun he => hpos (.inl he))).symm

/-- The number that its text is read as. -/
def rereadNumber (d : Decimal) : Decimal := (numeralOf (numberText (.finite d))).getD d

theorem rereadNumber_value (d : Decimal) : (rereadNumber d).value = d.value := by
  obtain ⟨u, hu, hv, -⟩ := (numeric_text d).denotes
  rw [rereadNumber, hu]
  exact hv

theorem rereadNumber_isInt (d : Decimal) : (rereadNumber d).isInt = d.isInt := by
  obtain ⟨u, hu, -, hi⟩ := (numeric_text d).denotes
  rw [rereadNumber, hu]
  exact hi

/-- A number ends where no character of a number follows. -/
def Delimited (r : List Char) : Prop := ∀ c ∈ r.head?, isNumberChar c = false

theorem readNumber_text (d : Decimal) (hr : Delimited r) :
    readNumber (numberText (.finite d) ++ r) = some (.number (.finite (rereadNumber d)), r) := by
  have hn := numeric_text d
  obtain ⟨u, hu, -, -⟩ := hn.denotes
  have htake : (numberText (.finite d) ++ r).takeWhile isNumberChar = numberText (.finite d) ∧
      (numberText (.finite d) ++ r).dropWhile isNumberChar = r := by
    rw [List.takeWhile_append_of_pos hn.chars, List.dropWhile_append_of_pos hn.chars]
    cases r with
    | nil => simp
    | cons c r =>
        have hc : isNumberChar c = false := hr c rfl
        simp [hc]
  rw [readNumber, htake.1, htake.2, rereadNumber, hu]
  rfl

mutual

/-- The value that its text is read as: its numbers may have another exponent. -/
def reread : Value → Value
  | .number (.finite d) => .number (.finite (rereadNumber d))
  | .list vs => .list (rereadAll vs)
  | .object fields => .object (rereadFields fields)
  | v => v

def rereadAll : List Value → List Value
  | [] => []
  | v :: vs => reread v :: rereadAll vs

def rereadFields : List (String × Value) → List (String × Value)
  | [] => []
  | (k, v) :: fields => (k, reread v) :: rereadFields fields

end

theorem delimited_cons {c : Char} {cs : List Char} (h : isNumberChar c = false) : Delimited (c :: cs) := by
  intro x hx
  cases hx
  exact h

theorem delimited_items (vs : List Value) (r : List Char) : Delimited (compactItems vs ++ r) := by
  cases vs with
  | nil => exact delimited_cons rfl
  | cons v vs => exact delimited_cons rfl

theorem delimited_fields (fields : List (String × Value)) (r : List Char) : Delimited (compactFields fields ++ r) := by
  cases fields with
  | nil => exact delimited_cons rfl
  | cons f fields => exact delimited_cons rfl

theorem length_escaped (s : List Char) : s.length ≤ (s.flatMap escape).length := by
  induction s with
  | nil => exact le_rfl
  | cons c s ih =>
      have hc : 0 < (escape c).length := by
        rcases escape_cases c with ⟨he, -⟩ | ⟨cs, he, -⟩
        · simp [he]
        · simp [he]
      rw [List.flatMap_cons, List.length_append, List.length_cons]
      omega

theorem readString_quoted (s : String) (r : List Char) :
    readString ((s.toList.flatMap escape ++ '"' :: r).length + 1) (s.toList.flatMap escape ++ '"' :: r) =
      some (s.toList, r) := by
  apply readString_escaped
  have := length_escaped s.toList
  rw [List.length_append]
  omega

theorem readKey_quoted (k : String) (r : List Char) : readKey (quote k ++ ':' :: r) = some (k, r) := by
  have htext : quote k ++ ':' :: r = '"' :: (k.toList.flatMap escape ++ '"' :: ':' :: r) := by simp [quote]
  rw [htext, readKey, readString_quoted]
  simp

/-- No value begins as a list ends. -/
theorem compact_head (v : Value) : compact v ≠ [] ∧ (compact v).head? ≠ some ']' := by
  cases v with
  | null => exact ⟨nofun, by decide⟩
  | bool b => cases b <;> exact ⟨nofun, by decide⟩
  | number x =>
      cases x with
      | nonFinite => exact ⟨nofun, by decide⟩
      | finite d =>
          obtain ⟨c, cs, hc, hdigit⟩ := (numeric_text d).head
          refine ⟨by simp [compact, hc], ?_⟩
          simp only [compact, hc, List.head?_cons, ne_eq, Option.some.injEq]
          rintro rfl
          exact absurd hdigit (by decide)
  | text s => exact ⟨nofun, by simp [compact, quote]⟩
  | list vs => cases vs <;> exact ⟨nofun, by simp [compact]⟩
  | object fields => cases fields <;> exact ⟨nofun, by simp [compact]⟩

theorem compact_length (v : Value) : 0 < (compact v).length := List.length_pos_of_ne_nil (compact_head v).1

/-- A number is told from every other value by its first character. -/
theorem readValue_number (d : Decimal) (n : ℕ) (hr : Delimited r) :
    readValue (n + 1) (numberText (.finite d) ++ r) = some (.number (.finite (rereadNumber d)), r) := by
  obtain ⟨c, cs, hc, hdigit⟩ := (numeric_text d).head
  have hother : ∀ x : Char, x.isDigit = false → x ≠ '-' → c ≠ x := by
    rintro x hx hm rfl
    rcases hdigit with h | h
    · rw [hx] at h
      cases h
    · exact hm h
  rw [← readNumber_text d hr, hc, List.cons_append, readValue]
  simp [hother]

mutual

/-- A value reads back from its text, whatever follows it. -/
theorem readValue_compact : ∀ (v : Value) (n : ℕ) (r : List Char), (compact v).length ≤ n → Delimited r →
    readValue n (compact v ++ r) = some (reread v, r)
  | v, 0, r, hn, _ => absurd (compact_length v) (not_lt.mpr hn)
  | .null, n + 1, r, hn, _ => by simp [compact, readValue, readWord, reread]
  | .bool true, n + 1, r, hn, _ => by simp [compact, readValue, readWord, reread]
  | .bool false, n + 1, r, hn, _ => by simp [compact, readValue, readWord, reread]
  | .number .nonFinite, n + 1, r, hn, _ => by simp [compact, numberText, readValue, readWord, reread]
  | .number (.finite d), n + 1, r, hn, hr => by
      rw [compact, reread]
      exact readValue_number d n hr
  | .text s, n + 1, r, hn, _ => by
      have htext : compact (.text s) ++ r = '"' :: (s.toList.flatMap escape ++ '"' :: r) := by simp [compact, quote]
      rw [htext, readValue, if_pos rfl, readString_quoted]
      simp [reread]
  | .list [], n + 1, r, hn, _ => by simp [compact, readValue, reread, rereadAll]
  | .list (v :: vs), n + 1, r, hn, _ => by
      rw [compact, List.length_cons, List.length_append] at hn
      have hv := readValue_compact v n (compactItems vs ++ r) (by omega) (delimited_items vs r)
      have hvs := readItems_compact vs n r (by omega)
      obtain ⟨hne, hhead⟩ := compact_head v
      rw [compact, List.cons_append, List.append_assoc]
      simp [readValue, hne, hhead, hv, hvs, reread, rereadAll]
  | .object [], n + 1, r, hn, _ => by simp [compact, readValue, reread, rereadFields]
  | .object ((k, v) :: fields), n + 1, r, hn, _ => by
      rw [compact, List.length_cons, List.length_append, List.length_cons, List.length_append] at hn
      have hk := readKey_quoted k (compact v ++ (compactFields fields ++ r))
      have hv := readValue_compact v n (compactFields fields ++ r) (by omega) (delimited_fields fields r)
      have hfields := readFields_compact fields n r (by omega)
      have hquote : (quote k).head? = some '"' := rfl
      rw [compact, List.cons_append, List.append_assoc, List.cons_append, List.append_assoc]
      simp [readValue, hquote, hk, hv, hfields, reread, rereadFields]

theorem readItems_compact : ∀ (vs : List Value) (n : ℕ) (r : List Char), (compactItems vs).length ≤ n →
    readItems n (compactItems vs ++ r) = some (rereadAll vs, r)
  | [], 0, r, hn => by simp [compactItems] at hn
  | _ :: _, 0, r, hn => by simp [compactItems] at hn
  | [], n + 1, r, hn => by simp [compactItems, readItems, rereadAll]
  | v :: vs, n + 1, r, hn => by
      rw [compactItems, List.length_cons, List.length_append] at hn
      have hv := readValue_compact v n (compactItems vs ++ r) (by omega) (delimited_items vs r)
      have hvs := readItems_compact vs n r (by omega)
      rw [compactItems, List.cons_append, List.append_assoc]
      simp [readItems, hv, hvs, rereadAll]

theorem readFields_compact : ∀ (fields : List (String × Value)) (n : ℕ) (r : List Char),
    (compactFields fields).length ≤ n → readFields n (compactFields fields ++ r) = some (rereadFields fields, r)
  | [], 0, r, hn => by simp [compactFields] at hn
  | _ :: _, 0, r, hn => by simp [compactFields] at hn
  | [], n + 1, r, hn => by simp [compactFields, readFields, rereadFields]
  | (k, v) :: fields, n + 1, r, hn => by
      rw [compactFields, List.length_cons, List.length_append, List.length_cons, List.length_append] at hn
      have hk := readKey_quoted k (compact v ++ (compactFields fields ++ r))
      have hv := readValue_compact v n (compactFields fields ++ r) (by omega) (delimited_fields fields r)
      have hfields := readFields_compact fields n r (by omega)
      rw [compactFields, List.cons_append, List.append_assoc, List.cons_append, List.append_assoc]
      simp [readFields, hk, hv, hfields, rereadFields]

end

/-- What was dumped is loaded again, with its fields in order and its numbers as they are read. -/
theorem loads_dumps {v : Value} {s : String} (h : dumps v = .ok s) : loads s = .ok (reread (sortKeys v)) := by
  unfold dumps at h
  cases ha : allowed v with
  | error e =>
      rw [ha] at h
      cases h
  | ok u =>
      rw [ha] at h
      cases h
      have hread := readValue_compact (sortKeys v) _ [] le_rfl nofun
      rw [List.append_nil] at hread
      rw [loads, String.toList_ofList, hread]

end MoomooMcp.Json
