import MoomooMcp.Numbers

namespace MoomooMcp.Json

open Intent

def hexValue (c : Char) : Option ℕ :=
  if c.isDigit then some (c.toNat - 48)
  else if 97 ≤ c.toNat ∧ c.toNat ≤ 102 then some (c.toNat - 87)
  else if 65 ≤ c.toNat ∧ c.toNat ≤ 70 then some (c.toNat - 55)
  else none

def readHex : List Char → Option (ℕ × List Char)
  | a :: b :: c :: d :: cs => do
      return (4096 * (← hexValue a) + 256 * (← hexValue b) + 16 * (← hexValue c) + (← hexValue d), cs)
  | _ => none

def isHigh (n : ℕ) : Bool := 55296 ≤ n && n < 56320

def isLow (n : ℕ) : Bool := 56320 ≤ n && n < 57344

/-- The second half of a character outside the basic plane. -/
def readLow (high : ℕ) : List Char → Option (Char × List Char)
  | '\\' :: 'u' :: cs => do
      let (low, cs) ← readHex cs
      if isLow low then some (Char.ofNat (65536 + (high - 55296) * 1024 + (low - 56320)), cs) else none
  | _ => none

/-- What follows a backslash. -/
def readEscape : List Char → Option (Char × List Char)
  | '"' :: cs => some ('"', cs)
  | '\\' :: cs => some ('\\', cs)
  | '/' :: cs => some ('/', cs)
  | 'b' :: cs => some (Char.ofNat 8, cs)
  | 'f' :: cs => some (Char.ofNat 12, cs)
  | 'n' :: cs => some ('\n', cs)
  | 'r' :: cs => some ('\r', cs)
  | 't' :: cs => some ('\t', cs)
  | 'u' :: cs => do
      let (n, cs) ← readHex cs
      if isHigh n then readLow n cs else some (Char.ofNat n, cs)
  | _ => none

/-- The characters of a string up to its closing quote. -/
def readString : ℕ → List Char → Option (List Char × List Char)
  | 0, _ => none
  | _ + 1, [] => none
  | _ + 1, '"' :: cs => some ([], cs)
  | n + 1, '\\' :: cs => do
      let (c, cs) ← readEscape cs
      let (s, cs) ← readString n cs
      return (c :: s, cs)
  | n + 1, c :: cs => do
      let (s, cs) ← readString n cs
      return (c :: s, cs)

theorem hexValue_hexDigit {n : ℕ} (h : n < 16) : hexValue (hexDigit n) = some n := by
  have hall : ∀ n < 16, hexValue (hexDigit n) = some n := by decide
  exact hall n h

theorem readHex_unicode {n : ℕ} (h : n < 65536) (cs : List Char) :
    readHex ((unicodeEscape n).drop 2 ++ cs) = some (n, cs) := by
  have hd : ∀ m, hexValue (hexDigit (m % 16)) = some (m % 16) := fun m => hexValue_hexDigit (Nat.mod_lt _ (by omega))
  have hsum : 4096 * (n / 4096 % 16) + 256 * (n / 256 % 16) + 16 * (n / 16 % 16) + n % 16 = n := by omega
  simp [unicodeEscape, readHex, hd, hsum]

theorem unicodeEscape_eq (n : ℕ) : unicodeEscape n = '\\' :: 'u' :: (unicodeEscape n).drop 2 := rfl

theorem toNat_range (c : Char) : c.toNat < 55296 ∨ 57343 < c.toNat ∧ c.toNat < 1114112 := c.valid

/-- How a character is written: as it is, or behind a backslash so that it can be read back. -/
theorem escape_cases (c : Char) : (escape c = [c] ∧ c ≠ '"' ∧ c ≠ '\\') ∨
    ∃ cs, escape c = '\\' :: cs ∧ ∀ rest, readEscape (cs ++ rest) = some (c, rest) := by
  by_cases hq : c = '"'
  · subst hq
    exact .inr ⟨_, rfl, fun _ => rfl⟩
  by_cases hb : c = '\\'
  · subst hb
    exact .inr ⟨_, rfl, fun _ => rfl⟩
  by_cases hn : c = '\n'
  · subst hn
    exact .inr ⟨_, rfl, fun _ => rfl⟩
  by_cases hr : c = '\r'
  · subst hr
    exact .inr ⟨_, rfl, fun _ => rfl⟩
  by_cases ht : c = '\t'
  · subst ht
    exact .inr ⟨_, rfl, fun _ => rfl⟩
  by_cases h8 : c.toNat = 8
  · obtain rfl : c = Char.ofNat 8 := by rw [← h8, Char.ofNat_toNat]
    exact .inr ⟨_, rfl, fun _ => rfl⟩
  by_cases h12 : c.toNat = 12
  · obtain rfl : c = Char.ofNat 12 := by rw [← h12, Char.ofNat_toNat]
    exact .inr ⟨_, rfl, fun _ => rfl⟩
  rw [escape, if_neg hq, if_neg hb, if_neg hn, if_neg hr, if_neg ht, if_neg h8, if_neg h12]
  by_cases hp : (32 ≤ c.toNat && c.toNat ≤ 126) = true
  · rw [if_pos hp]
    exact .inl ⟨rfl, hq, hb⟩
  rw [if_neg hp]
  by_cases hu : c.toNat < 65536
  · rw [if_pos hu]
    refine .inr ⟨_, unicodeEscape_eq _, fun rest => ?_⟩
    have hhigh : isHigh c.toNat = false := by
      have := toNat_range c
      simp only [isHigh, Bool.and_eq_false_iff, decide_eq_false_iff_not]
      omega
    simp [readEscape, readHex_unicode hu, hhigh]
  · rw [if_neg hu]
    have hrange := toNat_range c
    obtain ⟨m, hm⟩ : ∃ m, c.toNat = 65536 + m := ⟨c.toNat - 65536, by omega⟩
    have hdiv := Nat.div_add_mod m 1024
    have hlt : m / 1024 < 1024 := by omega
    have hmod : m % 1024 < 1024 := Nat.mod_lt _ (by omega)
    have hhigh : isHigh (55296 + m / 1024) = true := by
      simp only [isHigh, Bool.and_eq_true, decide_eq_true_eq]
      omega
    have hlow : isLow (56320 + m % 1024) = true := by
      simp only [isLow, Bool.and_eq_true, decide_eq_true_eq]
      omega
    have hchar : Char.ofNat (65536 + m / 1024 * 1024 + m % 1024) = c := by
      rw [show 65536 + m / 1024 * 1024 + m % 1024 = c.toNat by omega, Char.ofNat_toNat]
    refine .inr ⟨'u' :: ((unicodeEscape (55296 + m / 1024)).drop 2 ++
      '\\' :: 'u' :: (unicodeEscape (56320 + m % 1024)).drop 2), ?_, fun rest => ?_⟩
    · rw [hm, Nat.add_sub_cancel_left]
      rfl
    · have hfirst := readHex_unicode (show 55296 + m / 1024 < 65536 by omega)
      have hsecond := readHex_unicode (show 56320 + m % 1024 < 65536 by omega)
      simp only [List.cons_append, List.append_assoc]
      simp [readEscape, readLow, hfirst, hsecond, hhigh, hlow, hchar]

/-- A quoted string reads back. -/
theorem readString_escaped (s cs : List Char) {n : ℕ} (h : s.length < n) :
    readString n (s.flatMap escape ++ '"' :: cs) = some (s, cs) := by
  induction s generalizing n with
  | nil =>
      obtain ⟨n, rfl⟩ := Nat.exists_eq_add_one_of_ne_zero (Nat.ne_of_gt h)
      rfl
  | cons c s ih =>
      obtain ⟨n, rfl⟩ := Nat.exists_eq_add_one_of_ne_zero (Nat.ne_of_gt (Nat.zero_lt_of_lt h))
      have hrest := ih (Nat.lt_of_succ_lt_succ h)
      rw [List.flatMap_cons, List.append_assoc]
      rcases escape_cases c with ⟨he, hq, hb⟩ | ⟨e, he, hread⟩
      · rw [he, List.singleton_append]
        simp [readString, hrest]
      · rw [he, List.cons_append]
        simp [readString, hread, hrest]

end MoomooMcp.Json
