import Mathlib.Data.List.DropRight
import Mathlib.Data.List.Sort
import MoomooMcp.Decimal
import MoomooMcp.Broker
import MoomooMcp.OrderErrors

namespace MoomooMcp

namespace Text

/-- The characters that `str.strip` removes. -/
def isSpace (c : Char) : Bool :=
  (9 ≤ c.toNat && c.toNat ≤ 13) || (28 ≤ c.toNat && c.toNat ≤ 32) ||
    (8192 ≤ c.toNat && c.toNat ≤ 8202) ||
    [133, 160, 5760, 8232, 8233, 8239, 8287, 12288].contains c.toNat

def strip (cs : List Char) : List Char := (((cs.dropWhile isSpace).reverse).dropWhile isSpace).reverse

/-- `text.strip().upper()`, for names made of ASCII letters. -/
def normalize (text : String) : String := String.ofList ((strip text.toList).map Char.toUpper)

def isDecimal (text : String) : Bool := !text.isEmpty && text.toList.all Char.isDigit

/-- The integer a text of decimal digits denotes. -/
def toNat (text : String) : ℕ := text.toList.foldl (fun n c => 10 * n + (c.toNat - 48)) 0

theorem toUpper_cases (c : Char) : c.toUpper = c ∨ (97 ≤ c.toNat ∧ c.toNat ≤ 122 ∧ c.toUpper.toNat + 32 = c.toNat) := by
  unfold Char.toUpper
  split
  · next h =>
      refine .inr ⟨h.1, h.2, ?_⟩
      have hv : 97 ≤ c.val.toNat ∧ c.val.toNat ≤ 122 := h
      show (c.val + ('A'.val - 'a'.val)).toNat + 32 = c.val.toNat
      rw [UInt32.toNat_add]
      have : ('A'.val - 'a'.val).toNat = 4294967264 := by decide
      omega
  · exact .inl rfl

theorem isSpace_toUpper (c : Char) : isSpace c.toUpper = isSpace c := by
  rcases toUpper_cases c with h | ⟨hge, hle, hup⟩
  · rw [h]
  · simp only [isSpace, List.contains_eq_mem, List.mem_cons, List.not_mem_nil, or_false]
    grind

theorem toUpper_toUpper (c : Char) : c.toUpper.toUpper = c.toUpper := by
  rcases toUpper_cases c with h | ⟨hge, hle, hup⟩
  · rw [h]; exact h
  · rcases toUpper_cases c.toUpper with h' | h'
    · exact h'
    · omega

theorem dropWhile_head {p : Char → Bool} {l r : List Char} (hr : r <+: l.dropWhile p) : r.dropWhile p = r := by
  cases r with
  | nil => rfl
  | cons c r =>
      obtain ⟨t, ht⟩ := hr
      have hc : p c = false := by
        have := List.head?_dropWhile_not p l
        rw [← ht] at this
        simpa using this
      exact List.dropWhile_cons_of_neg (by simp [hc])

theorem strip_strip (cs : List Char) : strip (strip cs) = strip cs := by
  have hprefix : strip cs <+: cs.dropWhile isSpace := List.rdropWhile_prefix isSpace _
  have hleft := dropWhile_head hprefix
  have hright : (strip cs).reverse.dropWhile isSpace = (strip cs).reverse := by
    rw [strip, List.reverse_reverse]
    exact dropWhile_head (List.prefix_refl _)
  show ((((strip cs).dropWhile isSpace).reverse).dropWhile isSpace).reverse = strip cs
  rw [hleft, hright, List.reverse_reverse]

theorem strip_map_toUpper (cs : List Char) : strip (cs.map Char.toUpper) = (strip cs).map Char.toUpper := by
  have hcomp : isSpace ∘ Char.toUpper = isSpace := funext isSpace_toUpper
  simp only [strip, List.dropWhile_map, hcomp, List.map_reverse]
  rw [← List.map_reverse, List.dropWhile_map, hcomp]

theorem normalize_normalize (text : String) : normalize (normalize text) = normalize text := by
  rw [normalize, normalize, String.toList_ofList, strip_map_toUpper, strip_strip, List.map_map]
  congr 2
  exact funext toUpper_toUpper

end Text

inductive Numeral
  | finite (d : Decimal)
  | nonFinite
  deriving DecidableEq, Repr

/-- A value of a request as JSON has it. -/
inductive Value
  | null
  | bool (b : Bool)
  | number (n : Numeral)
  | text (s : String)
  | list (vs : List Value)
  | object (fields : List (String × Value))
  deriving Repr

namespace Intent

def valueError (message : String) : Exc := ⟨.value, message, false⟩

/-- A decimal in positional notation, without trailing zeros of the fraction. -/
def rendered (d : Decimal) : String :=
  let sign := if d.coefficient < 0 then "-" else ""
  let digits := Nat.toDigits 10 (d.coefficient.natAbs * 10 ^ d.exponent.toNat)
  let places := (-d.exponent).toNat
  let padded := List.replicate (places + 1 - digits.length) '0' ++ digits
  let whole := padded.take (padded.length - places)
  let fraction := ((padded.drop (padded.length - places)).reverse.dropWhile (· = '0')).reverse
  sign ++ String.ofList (if fraction = [] then whole else whole ++ '.' :: fraction)

mutual

/-- The value with every number replaced by its exact text. -/
def number : Value → Except Exc Value
  | .number (.finite d) =>
      if d.exponent = 0 ∧ 4300 < (Nat.toDigits 10 d.coefficient.natAbs).length then
        .error (valueError "Exceeds the limit (4300 digits) for integer string conversion")
      else .ok (.object [("number", .text (rendered d))])
  | .number .nonFinite => .error (valueError "Prepared request numbers must be finite")
  | .list vs => do return .list (← numbers vs)
  | .object fields => do return .object (← numberFields fields)
  | v => .ok v

def numbers : List Value → Except Exc (List Value)
  | [] => .ok []
  | v :: vs => do return (← number v) :: (← numbers vs)

def numberFields : List (String × Value) → Except Exc (List (String × Value))
  | [] => .ok []
  | (k, v) :: fields => do return (k, ← number v) :: (← numberFields fields)

end

def hexDigit (n : ℕ) : Char := if n < 10 then Char.ofNat (48 + n) else Char.ofNat (87 + n)

def unicodeEscape (n : ℕ) : List Char :=
  ['\\', 'u', hexDigit (n / 4096 % 16), hexDigit (n / 256 % 16), hexDigit (n / 16 % 16), hexDigit (n % 16)]

/-- One character of a JSON string restricted to ASCII. -/
def escape (c : Char) : List Char :=
  if c = '"' then ['\\', '"']
  else if c = '\\' then ['\\', '\\']
  else if c = '\n' then ['\\', 'n']
  else if c = '\r' then ['\\', 'r']
  else if c = '\t' then ['\\', 't']
  else if c.toNat = 8 then ['\\', 'b']
  else if c.toNat = 12 then ['\\', 'f']
  else if 32 ≤ c.toNat && c.toNat ≤ 126 then [c]
  else if c.toNat < 65536 then unicodeEscape c.toNat
  else unicodeEscape (55296 + (c.toNat - 65536) / 1024) ++ unicodeEscape (56320 + (c.toNat - 65536) % 1024)

def quoted (s : String) : String := "\"" ++ String.ofList (s.toList.flatMap escape) ++ "\""

mutual

/-- Compact JSON with sorted keys. No number is left in what is encoded. -/
def encode : Value → String
  | .null => "null"
  | .bool b => if b then "true" else "false"
  | .number _ => "null"
  | .text s => quoted s
  | .list vs => "[" ++ ",".intercalate (encodeAll vs) ++ "]"
  | .object fields =>
      let entries := (encodeFields fields).insertionSort (fun f g => f.1 ≤ g.1)
      "\x7b" ++ ",".intercalate (entries.map (fun f => quoted f.1 ++ ":" ++ f.2)) ++ "\x7d"

def encodeAll : List Value → List String
  | [] => []
  | v :: vs => encode v :: encodeAll vs

def encodeFields : List (String × Value) → List (String × String)
  | [] => []
  | (k, v) :: fields => (k, encode v) :: encodeFields fields

end

/-- The bound parameters of a mutation. Those that identify, route or normalize
the request are named, the others are kept as they came. -/
structure Parameters where
  trdEnv : String
  accId : String
  operationId : Option String
  admissionEpoch : Option String
  modifyOrderOp : Option String
  session : Option String
  others : List (String × Value)

def documentedSessions : List String := ["N/A", "RTH", "ETH", "OVERNIGHT", "ALL"]

def sessionError : Exc := valueError "session must be N/A, RTH, ETH, OVERNIGHT or ALL"

/-- `normalize_order_session`. -/
def normalizeOrderSession (session trdEnv : String) : Except Exc String :=
  let selected := if Text.normalize session = "NONE" then "N/A" else Text.normalize session
  if selected ∉ documentedSessions then .error sessionError
  else if Text.normalize trdEnv = "SIMULATE" then
    if selected = "N/A" ∨ selected = "RTH" then .ok "RTH"
    else .error (valueError "Paper execution supports the RTH session only")
  else .ok selected

/-- An account identifier, however its digits are written. The conversion to an
integer refuses texts that are too long. -/
def exactAccount (message account : String) : Except Exc Account :=
  if !Text.isDecimal account then .error (valueError message)
  else if 4300 < account.length then .error (valueError "Exceeds the limit (4300 digits) for integer string conversion")
  else .ok (Text.toNat account)

def canonicalAccount (account : String) : Except Exc Account :=
  exactAccount "Prepared account must be an exact decimal identifier" account

/-- The session a request is identified by: none where it is the default one. -/
def canonicalSession (trdEnv : String) : Option String → Except Exc (Option String)
  | none => .ok none
  | some session => do
      let selected ← normalizeOrderSession session "REAL"
      return if selected = "N/A" ∨ (trdEnv = "SIMULATE" ∧ selected = "RTH") then none else some selected

def field (key : String) (value : Option String) : List (String × Value) :=
  (value.map (fun s => (key, .text s))).toList

def optional (value : Option String) : Value := (value.map .text).getD .null

/-- Whether the operation of the request counts as present depends on the method
only, and so does the session. -/
def canonicalFields (p : Parameters) (account : Account) (session : Option String) : List (String × Value) :=
  p.others.filter (fun f => f.1 ≠ "approval_id") ++
    [("trd_env", .text p.trdEnv), ("acc_id", .text (toString account)),
      ("operation_id", optional p.operationId), ("admission_epoch", optional p.admissionEpoch)] ++
    field "modify_order_op" (p.modifyOrderOp.map Text.normalize) ++ field "session" session

/-- Bind defaults, routing and caller identity, excluding approval transport. -/
def canonicalIntent (method : String) (p : Parameters) : Except Exc String := do
  let account ← canonicalAccount p.accId
  let session ← canonicalSession p.trdEnv p.session
  let fields ← number (.object (canonicalFields p account session))
  let encoded := encode (.object [("method", .text method), ("parameters", fields)])
  if 65536 < encoded.length then .error (valueError "Prepared request exceeds 64 KiB")
  else .ok encoded

end Intent

end MoomooMcp
