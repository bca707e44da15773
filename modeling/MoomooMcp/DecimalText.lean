import MoomooMcp.DecimalContext
import MoomooMcp.JsonRoundTrip
import MoomooMcp.RecoveryEvidence

namespace MoomooMcp.Decimal

open Text Json

def maxEmax : ℤ := 999999999999999999

def minEtiny : ℤ := -1999999999999999997

/-- The numbers that the type can hold. -/
def Representable (d : Decimal) : Prop :=
  minEtiny ≤ d.exponent ∧ d.adjusted ≤ maxEmax ∧ digits d.coefficient.natAbs ≤ maxPrec

instance (d : Decimal) : Decidable d.Representable := inferInstanceAs (Decidable (_ ∧ _ ∧ _))

/-- `Decimal(text)`, where the text denotes a finite number. -/
def ofText (text : String) : Option Decimal :=
  match toDecimal text with
  | some (.finite d) => if d.Representable then some d else none
  | _ => none

/-- What `str` writes behind the sign. -/
def strBody (d : Decimal) : List Char :=
  if d.exponent ≤ 0 ∧ -7 < d.adjusted then d.positional
  else
    d.digitChars.take 1 ++ (if d.digitChars.length ≤ 1 then [] else '.' :: d.digitChars.drop 1) ++
      'E' :: (if d.adjusted < 0 then '-' else '+') :: Nat.toDigits 10 d.adjusted.natAbs

theorem str_toList (d : Decimal) : d.str.toList = (if d.coefficient < 0 then ['-'] else []) ++ d.strBody := by
  rw [str, strBody]
  dsimp only
  split
  · rw [String.toList_ofList]
  · rw [String.toList_ofList, List.append_assoc, List.append_assoc, List.append_assoc]

/-- The characters of a finite number. -/
def isNumeralChar (c : Char) : Bool := isNumberChar c || c = 'E'

theorem isNumeralChar_digit {c : Char} (h : c.isDigit = true) : isNumeralChar c = true := by
  simp [isNumeralChar, isNumberChar_digit h]

theorem isNumeralChar_solid {c : Char} (h : isNumeralChar c = true) : isSpace c = false ∧ c ≠ '_' := by
  simp only [isNumeralChar, isNumberChar, Bool.or_eq_true, decide_eq_true_eq, List.contains_eq_mem, List.mem_cons,
    List.not_mem_nil, or_false] at h
  rcases h with (hdigit | rfl | rfl | rfl | rfl) | rfl
  · exact ⟨isPlain_solid (by simp [isPlain, hdigit]), fun heq => by simp [heq, Char.isDigit] at hdigit⟩
  all_goals exact ⟨by decide, by decide⟩

/-- A text without a sign that begins with a digit, has only characters of a number, and
denotes a magnitude. -/
structure Unsigned (cs : List Char) (u : Decimal) : Prop where
  head : ∃ c rest, cs = c :: rest ∧ c.isDigit = true
  chars : ∀ c ∈ cs, isNumeralChar c = true
  denotes : unsignedNumeral cs = some u

theorem Unsigned.positional {d : Decimal} (h : d.exponent ≤ 0) :
    Unsigned d.positional ⟨d.coefficient.natAbs, d.exponent⟩ := by
  have hdigits := digits_positional d
  exact ⟨hdigits.head, fun c hc => by simp [isNumeralChar, hdigits.chars c hc], unsigned_positional h⟩

/-- All digits and an exponent read back as they were written. -/
theorem Unsigned.exponential (d : Decimal) :
    Unsigned (d.digitChars.take 1 ++ (if d.digitChars.length ≤ 1 then [] else '.' :: d.digitChars.drop 1) ++
      'E' :: (if d.adjusted < 0 then '-' else '+') :: Nat.toDigits 10 d.adjusted.natAbs)
      ⟨d.coefficient.natAbs, d.exponent⟩ := by
  have hne : d.digitChars ≠ [] := Nat.toDigits_ne_nil
  obtain ⟨c, ds, hds⟩ := List.exists_cons_of_ne_nil hne
  have hdigit : ∀ x ∈ c :: ds, x.isDigit = true := hds ▸ d.digitChars_digits
  have hvalue : digitsValue (c :: ds) = d.coefficient.natAbs := hds ▸ d.digitChars_value
  have hexponent : d.adjusted - ds.length = d.exponent := by
    have hlength := d.digitChars_length
    rw [hds, List.length_cons] at hlength
    rw [adjusted, ← hlength]
    push_cast
    ring
  have htext : d.digitChars.take 1 ++ (if d.digitChars.length ≤ 1 then [] else '.' :: d.digitChars.drop 1) =
      [c] ++ pointed ds := by
    rw [hds]
    cases ds <;> simp [pointed]
  obtain ⟨sign, hsign⟩ : ∃ sign, sign = if d.adjusted < 0 then '-' else '+' := ⟨_, rfl⟩
  have hpart : exponentPart ('E' :: sign :: Nat.toDigits 10 d.adjusted.natAbs) = some d.adjusted :=
    hsign ▸ exponentPart_signed (.inr rfl) 0 d.adjusted
  rw [htext, List.append_assoc, ← hsign]
  refine ⟨⟨c, _, rfl, hdigit c List.mem_cons_self⟩, fun x hx => ?_, ?_⟩
  · simp only [List.mem_append, List.mem_cons, List.not_mem_nil, or_false] at hx
    rcases hx with rfl | hx | rfl | rfl | hx
    · exact isNumeralChar_digit (hdigit x List.mem_cons_self)
    · unfold pointed at hx
      split at hx
      · cases hx
      · rcases List.mem_cons.mp hx with rfl | hx
        · rfl
        · exact isNumeralChar_digit (hdigit x (List.mem_cons_of_mem _ hx))
    · rfl
    · rw [hsign]
      split <;> rfl
    · exact isNumeralChar_digit (Nat.isDigit_of_mem_toDigits (by decide) (by decide) hx)
  · rw [unsigned_pointed hdigit (by simp) hpart, hvalue, hexponent]

theorem strBody_unsigned (d : Decimal) : Unsigned d.strBody ⟨d.coefficient.natAbs, d.exponent⟩ := by
  rw [strBody]
  split
  · next h => exact .positional h.1
  · exact .exponential d

/-- A text that begins with a digit is none of the words for a number that is not finite. -/
theorem not_word {c : Char} {rest : List Char} {words : List String} (hc : c.isDigit = true)
    (hwords : words.all (fun w => w.toList.head?.any (fun x => !x.isDigit)) = true) :
    words.contains (String.ofList (c :: rest)) = false := by
  rw [List.contains_eq_mem, decide_eq_false_iff_not]
  intro hmem
  have hhead := List.all_eq_true.mp hwords _ hmem
  rw [String.toList_ofList, List.head?_cons, Option.any_some, hc] at hhead
  cases hhead

/-- Without the digits at its end a text begins as it did, or is empty. -/
theorem diagnostic_head (c : Char) (rest : List Char) :
    ((c :: rest).reverse.dropWhile Char.isDigit).reverse = [] ∨
      ∃ more, ((c :: rest).reverse.dropWhile Char.isDigit).reverse = c :: more := by
  have hprefix : ((c :: rest).reverse.dropWhile Char.isDigit).reverse <+: c :: rest :=
    List.rdropWhile_prefix _ _
  cases hcs : ((c :: rest).reverse.dropWhile Char.isDigit).reverse with
  | nil => exact .inl rfl
  | cons x more =>
      rw [hcs] at hprefix
      obtain ⟨_, heq⟩ := hprefix
      exact .inr ⟨more, by rw [(List.cons.inj heq).1]⟩

/-- A number with its sign in front reads back with that sign. -/
theorem Unsigned.toDecimal {cs : List Char} {u : Decimal} (h : Unsigned cs u) (negative : Bool) :
    Text.toDecimal (String.ofList ((if negative then ['-'] else []) ++ cs)) =
      some (.finite { u with coefficient := if negative then -u.coefficient else u.coefficient }) := by
  obtain ⟨c, rest, rfl, hc⟩ := h.head
  have hchars : ∀ x ∈ (if negative then ['-'] else []) ++ c :: rest, isNumeralChar x = true := by
    intro x hx
    rcases List.mem_append.mp hx with hsign | hx
    · cases negative with
      | false => cases hsign
      | true =>
          obtain rfl : x = '-' := by simpa using hsign
          rfl
    · exact h.chars x hx
  have hstrip : strip ((if negative then ['-'] else []) ++ c :: rest) = (if negative then ['-'] else []) ++ c :: rest :=
    strip_of_solid (fun x hx => (isNumeralChar_solid (hchars x hx)).1)
  have hfilter : ((if negative then ['-'] else []) ++ c :: rest).filter (· ≠ '_') =
      (if negative then ['-'] else []) ++ c :: rest :=
    List.filter_eq_self.mpr (fun x hx => by simpa using (isNumeralChar_solid (hchars x hx)).2)
  have hsigned : signed ((if negative then ['-'] else []) ++ c :: rest) = (negative, c :: rest) := by
    cases negative with
    | false => exact signed_of_digit hc
    | true => rfl
  have hlower : (c :: rest).map Char.toLower = c :: rest.map Char.toLower := by
    rw [List.map_cons, toLower_of_digit hc]
  have hwords : ["inf", "infinity"].contains (String.ofList (c :: rest.map Char.toLower)) = false :=
    not_word hc rfl
  have hdiagnostic : ["nan", "snan"].contains (String.ofList
      ((c :: rest.map Char.toLower).reverse.dropWhile Char.isDigit).reverse) = false := by
    obtain hnone | ⟨more, hmore⟩ := diagnostic_head c (rest.map Char.toLower)
    · rw [hnone]
      rfl
    · rw [hmore]
      exact not_word hc rfl
  rw [Text.toDecimal, String.toList_ofList, hstrip, hfilter, hsigned]
  simp only [hlower, hwords, hdiagnostic, h.denotes]
  rfl

/-- What `str` writes reads back as the same coefficient and exponent. -/
theorem ofText_str (d : Decimal) : ofText d.str = if d.Representable then some d else none := by
  have hstr : d.str = String.ofList ((if decide (d.coefficient < 0) then ['-'] else []) ++ d.strBody) := by
    rw [← String.ofList_toList (s := d.str), str_toList]
    simp
  have hsame : (⟨if decide (d.coefficient < 0) then -(d.coefficient.natAbs : ℤ) else d.coefficient.natAbs, d.exponent⟩ :
      Decimal) = d := by
    have hcoefficient : (if decide (d.coefficient < 0) then -(d.coefficient.natAbs : ℤ) else d.coefficient.natAbs) =
        d.coefficient := by
      split
      · next h =>
          have hneg := of_decide_eq_true h
          omega
      · next h =>
          have hpos := of_decide_eq_false (Bool.not_eq_true _ ▸ h)
          omega
    rw [hcoefficient]
  rw [ofText, hstr, d.strBody_unsigned.toDecimal, hsame]

end MoomooMcp.Decimal
