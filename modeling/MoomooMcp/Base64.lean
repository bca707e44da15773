import Mathlib.Data.List.Basic

namespace MoomooMcp.Base64

/-- The character for six bits. -/
def digit (n : ℕ) : Char :=
  if n < 26 then Char.ofNat (65 + n)
  else if n < 52 then Char.ofNat (71 + n)
  else if n < 62 then Char.ofNat (n - 4)
  else if n = 62 then '+'
  else '/'

def value (c : Char) : Option ℕ :=
  if 65 ≤ c.toNat ∧ c.toNat ≤ 90 then some (c.toNat - 65)
  else if 97 ≤ c.toNat ∧ c.toNat ≤ 122 then some (c.toNat - 71)
  else if 48 ≤ c.toNat ∧ c.toNat ≤ 57 then some (c.toNat + 4)
  else if c = '+' then some 62
  else if c = '/' then some 63
  else none

def encode : List UInt8 → List Char
  | a :: b :: c :: bytes =>
      digit (a.toNat / 4) :: digit (a.toNat % 4 * 16 + b.toNat / 16) ::
        digit (b.toNat % 16 * 4 + c.toNat / 64) :: digit (c.toNat % 64) :: encode bytes
  | [a, b] => [digit (a.toNat / 4), digit (a.toNat % 4 * 16 + b.toNat / 16), digit (b.toNat % 16 * 4), '=']
  | [a] => [digit (a.toNat / 4), digit (a.toNat % 4 * 16), '=', '=']
  | [] => []

/-- Where a decoder is in a group of four characters, with the bits not used yet. -/
structure Quad where
  pos : Fin 4
  left : ℕ
  pads : ℕ
  padded : Bool
  deriving DecidableEq, Repr

def Quad.start : Quad := ⟨0, 0, 0, false⟩

/-- Six more bits, and the byte that is complete with them. -/
def Quad.push (q : Quad) (v : ℕ) : Quad × List UInt8 :=
  match q.pos with
  | 0 => (⟨1, v, 0, q.padded⟩, [])
  | 1 => (⟨2, v % 16, 0, q.padded⟩, [UInt8.ofNat (q.left * 4 + v / 16)])
  | 2 => (⟨3, v % 4, 0, q.padded⟩, [UInt8.ofNat (q.left * 16 + v / 4)])
  | 3 => (⟨0, 0, 0, q.padded⟩, [UInt8.ofNat (q.left * 64 + v)])

/-- A strict decoder refuses what the other one passes over: characters that are no
digits, digits behind the padding, and anything behind a whole padding. -/
def scan (strict : Bool) : Quad → List Char → Option (List UInt8)
  | q, [] => if q.pos = 0 then some [] else none
  | q, c :: cs =>
      if c = '=' then
        if 2 ≤ q.pos.val ∧ 4 ≤ q.pos.val + (q.pads + 1) then
          if strict ∧ cs ≠ [] then none else some []
        else scan strict { q with pads := if 2 ≤ q.pos.val then q.pads + 1 else q.pads, padded := true } cs
      else
        match value c with
        | none => if strict then none else scan strict q cs
        | some v =>
            if strict ∧ q.padded then none
            else (scan strict (q.push v).1 cs).map ((q.push v).2 ++ ·)

def decode (strict : Bool) (cs : List Char) : Option (List UInt8) :=
  if strict ∧ cs.head? = some '=' then none else scan strict .start cs

/-- The alphabet that needs no escapes in addresses, from and to the usual one. -/
def toUrl (c : Char) : Char := if c = '+' then '-' else if c = '/' then '_' else c

def ofUrl (c : Char) : Char := if c = '-' then '+' else if c = '_' then '/' else c

def urlEncode (bytes : List UInt8) : List Char := (encode bytes).map toUrl

def urlDecode (cs : List Char) : Option (List UInt8) := decode false (cs.map ofUrl)

variable {strict : Bool} {n : ℕ} {cs : List Char}

/-- What is known of the character for six bits. -/
theorem digit_facts (h : n < 64) :
    value (digit n) = some n ∧ digit n ≠ '=' ∧ ofUrl (toUrl (digit n)) = digit n ∧ 33 ≤ (toUrl (digit n)).toNat ∧
      (toUrl (digit n)).toNat < 127 ∧ (digit n).toNat < 127 := by
  have hall : ∀ n < 64, value (digit n) = some n ∧ digit n ≠ '=' ∧ ofUrl (toUrl (digit n)) = digit n ∧
      33 ≤ (toUrl (digit n)).toNat ∧ (toUrl (digit n)).toNat < 127 ∧ (digit n).toNat < 127 := by decide
  exact hall n h

theorem scan_digit (q : Quad) (hq : q.padded = false) (h : n < 64) :
    scan strict q (digit n :: cs) = (scan strict (q.push n).1 cs).map ((q.push n).2 ++ ·) := by
  obtain ⟨hvalue, hne, -⟩ := digit_facts h
  simp only [scan, hne, if_false, hvalue, hq, Bool.false_eq_true, and_false]

theorem scan_pad (left : ℕ) : scan strict ⟨3, left, 0, false⟩ ['='] = some [] := by
  cases strict <;> rfl

theorem scan_pads (left : ℕ) : scan strict ⟨2, left, 0, false⟩ ['=', '='] = some [] := by
  cases strict <;> rfl

/-- A decoder reads what was encoded, in either mode. -/
theorem scan_encode (strict : Bool) (bytes : List UInt8) : scan strict .start (encode bytes) = some bytes := by
  have hlt : ∀ b : UInt8, b.toNat < 256 := UInt8.toNat_lt
  fun_induction encode bytes with
  | case1 a b c bytes ih =>
      have ha := hlt a
      have hb := hlt b
      have hc := hlt c
      have hfirst : a.toNat / 4 * 4 + (a.toNat % 4 * 16 + b.toNat / 16) / 16 = a.toNat := by omega
      have hsecond : (a.toNat % 4 * 16 + b.toNat / 16) % 16 * 16 + (b.toNat % 16 * 4 + c.toNat / 64) / 4 = b.toNat := by
        omega
      have hthird : (b.toNat % 16 * 4 + c.toNat / 64) % 4 * 64 + c.toNat % 64 = c.toNat := by omega
      rw [scan_digit _ rfl (by omega), scan_digit _ rfl (by omega), scan_digit _ rfl (by omega),
        scan_digit _ rfl (by omega)]
      simp only [Quad.push, Quad.start, hfirst, hsecond, hthird, UInt8.ofNat_toNat]
      change Option.map _ (Option.map _ (Option.map _ (Option.map _ (scan strict .start (encode bytes))))) = _
      rw [ih]
      rfl
  | case2 a b =>
      have ha := hlt a
      have hb := hlt b
      have hfirst : a.toNat / 4 * 4 + (a.toNat % 4 * 16 + b.toNat / 16) / 16 = a.toNat := by omega
      have hsecond : (a.toNat % 4 * 16 + b.toNat / 16) % 16 * 16 + b.toNat % 16 * 4 / 4 = b.toNat := by omega
      rw [scan_digit _ rfl (by omega), scan_digit _ rfl (by omega), scan_digit _ rfl (by omega)]
      simp only [Quad.push, Quad.start, hfirst, hsecond, UInt8.ofNat_toNat, scan_pad]
      rfl
  | case3 a =>
      have ha := hlt a
      have hfirst : a.toNat / 4 * 4 + a.toNat % 4 * 16 / 16 = a.toNat := by omega
      rw [scan_digit _ rfl (by omega), scan_digit _ rfl (by omega)]
      simp only [Quad.push, Quad.start, hfirst, UInt8.ofNat_toNat, scan_pads]
      rfl
  | case4 => rfl

/-- Every character of an encoded text is a digit or a padding. -/
theorem mem_encode (bytes : List UInt8) {c : Char} (h : c ∈ encode bytes) : c = '=' ∨ ∃ n < 64, c = digit n := by
  have hlt : ∀ b : UInt8, b.toNat < 256 := UInt8.toNat_lt
  fun_induction encode bytes with
  | case1 a b d bytes ih =>
      have ha := hlt a
      have hb := hlt b
      have hd := hlt d
      rcases List.mem_cons.mp h with rfl | h
      · exact .inr ⟨_, by omega, rfl⟩
      rcases List.mem_cons.mp h with rfl | h
      · exact .inr ⟨_, by omega, rfl⟩
      rcases List.mem_cons.mp h with rfl | h
      · exact .inr ⟨_, by omega, rfl⟩
      rcases List.mem_cons.mp h with rfl | h
      · exact .inr ⟨_, by omega, rfl⟩
      exact ih h
  | case2 a b =>
      have ha := hlt a
      have hb := hlt b
      simp only [List.mem_cons, List.not_mem_nil, or_false] at h
      rcases h with rfl | rfl | rfl | rfl
      · exact .inr ⟨_, by omega, rfl⟩
      · exact .inr ⟨_, by omega, rfl⟩
      · exact .inr ⟨_, by omega, rfl⟩
      · exact .inl rfl
  | case3 a =>
      have ha := hlt a
      simp only [List.mem_cons, List.not_mem_nil, or_false] at h
      rcases h with rfl | rfl | rfl | rfl
      · exact .inr ⟨_, by omega, rfl⟩
      · exact .inr ⟨_, by omega, rfl⟩
      · exact .inl rfl
      · exact .inl rfl
  | case4 => cases h

theorem encode_head (bytes : List UInt8) : (encode bytes).head? ≠ some '=' := by
  have hlt : ∀ b : UInt8, b.toNat < 256 := UInt8.toNat_lt
  have hdigit : ∀ b : UInt8, digit (b.toNat / 4) ≠ '=' := fun b => (digit_facts (by have := hlt b; omega)).2.1
  fun_cases encode bytes with
  | case1 a | case2 a | case3 a => simpa using hdigit a
  | case4 => nofun

theorem decode_encode (strict : Bool) (bytes : List UInt8) : decode strict (encode bytes) = some bytes := by
  rw [decode, if_neg (fun h => encode_head bytes h.2), scan_encode]

theorem urlDecode_urlEncode (bytes : List UInt8) : urlDecode (urlEncode bytes) = some bytes := by
  have hback : (urlEncode bytes).map ofUrl = encode bytes := by
    rw [urlEncode, List.map_map]
    refine (List.map_congr_left (fun c hc => ?_)).trans (List.map_id _)
    rcases mem_encode bytes hc with rfl | ⟨n, hn, rfl⟩
    · rfl
    · exact (digit_facts hn).2.2.1
  rw [urlDecode, hback, decode_encode]

end MoomooMcp.Base64
