import MoomooMcp.CanonicalNumbers
import MoomooMcp.JsonText

namespace MoomooMcp.Json

open Intent Text

/-- The text of a number. The zero of the floats has one spelling. -/
def numberText : Numeral → List Char
  | .nonFinite => ['N', 'a', 'N']
  | .finite d => if d.coefficient = 0 ∧ d.exponent ≠ 0 then ['0', '.', '0'] else d.text.toList

def quote (s : String) : List Char := '"' :: (s.toList.flatMap escape ++ ['"'])

mutual

/-- A value without blanks between its parts, its fields in the order they have. -/
def compact : Value → List Char
  | .null => ['n', 'u', 'l', 'l']
  | .bool true => ['t', 'r', 'u', 'e']
  | .bool false => ['f', 'a', 'l', 's', 'e']
  | .number n => numberText n
  | .text s => quote s
  | .list [] => ['[', ']']
  | .list (v :: vs) => '[' :: (compact v ++ compactItems vs)
  | .object [] => ['\x7b', '\x7d']
  | .object ((k, v) :: fields) => '\x7b' :: (quote k ++ ':' :: (compact v ++ compactFields fields))

def compactItems : List Value → List Char
  | [] => [']']
  | v :: vs => ',' :: (compact v ++ compactItems vs)

def compactFields : List (String × Value) → List Char
  | [] => ['\x7d']
  | (k, v) :: fields => ',' :: (quote k ++ ':' :: (compact v ++ compactFields fields))

end

mutual

/-- The same value with the fields of every object in the order of their names. -/
def sortKeys : Value → Value
  | .list vs => .list (sortKeysAll vs)
  | .object fields => .object ((sortKeysFields fields).insertionSort (fun f g => f.1 ≤ g.1))
  | v => v

def sortKeysAll : List Value → List Value
  | [] => []
  | v :: vs => sortKeys v :: sortKeysAll vs

def sortKeysFields : List (String × Value) → List (String × Value)
  | [] => []
  | (k, v) :: fields => (k, sortKeys v) :: sortKeysFields fields

end

/-- The conversion of an integer to its text, and that of a number that is none, can be refused. -/
def numberAllowed : Numeral → Except Exc Unit
  | .nonFinite => .error (valueError "Out of range float values are not JSON compliant")
  | .finite d =>
      if d.isInt ∧ 4300 < d.digitChars.length then
        .error (valueError "Exceeds the limit (4300 digits) for integer string conversion")
      else .ok ()

mutual

def allowed : Value → Except Exc Unit
  | .number n => numberAllowed n
  | .list vs => allowedAll vs
  | .object fields => allowedFields fields
  | _ => .ok ()

def allowedAll : List Value → Except Exc Unit
  | [] => .ok ()
  | v :: vs => do allowed v; allowedAll vs

def allowedFields : List (String × Value) → Except Exc Unit
  | [] => .ok ()
  | (_, v) :: fields => do allowed v; allowedFields fields

end

/-- `json.dumps` with sorted keys, compact separators and finite numbers only. -/
def dumps (v : Value) : Except Exc String := do
  allowed v
  return String.ofList (compact (sortKeys v))

def isNumberChar (c : Char) : Bool := c.isDigit || ['-', '+', '.', 'e'].contains c

/-- A number without blanks around it. It is an integer if it has digits only. -/
def numeralOf (cs : List Char) : Option Decimal :=
  let (negative, rest) := signed cs
  (unsignedNumeral rest).map (fun d =>
    let c := if negative then -d.coefficient else d.coefficient
    if rest.all Char.isDigit then ⟨c, d.exponent⟩ else (⟨c, d.exponent⟩ : Decimal).spelled)

def readNumber (cs : List Char) : Option (Value × List Char) :=
  (numeralOf (cs.takeWhile isNumberChar)).map (fun d => (.number (.finite d), cs.dropWhile isNumberChar))

def readWord (word : List Char) (v : Value) (cs : List Char) : Option (Value × List Char) :=
  if word.isPrefixOf cs then some (v, cs.drop word.length) else none

def readKey (cs : List Char) : Option (String × List Char) :=
  match cs with
  | '"' :: cs => do
      let (s, cs) ← readString (cs.length + 1) cs
      match cs with
      | ':' :: cs => some (String.ofList s, cs)
      | _ => none
  | _ => none

mutual

/-- A value at the start of a text without blanks, and what follows it. -/
def readValue : ℕ → List Char → Option (Value × List Char)
  | 0, _ => none
  | _ + 1, [] => none
  | n + 1, c :: cs =>
      if c = '"' then (readString (cs.length + 1) cs).map (fun p => (.text (String.ofList p.1), p.2))
      else if c = '[' then
        if cs.head? = some ']' then some (.list [], cs.tail)
        else do
          let (v, cs) ← readValue n cs
          let (vs, cs) ← readItems n cs
          return (.list (v :: vs), cs)
      else if c = '\x7b' then
        if cs.head? = some '\x7d' then some (.object [], cs.tail)
        else do
          let (k, cs) ← readKey cs
          let (v, cs) ← readValue n cs
          let (fields, cs) ← readFields n cs
          return (.object ((k, v) :: fields), cs)
      else if c = 'n' then readWord ['u', 'l', 'l'] .null cs
      else if c = 't' then readWord ['r', 'u', 'e'] (.bool true) cs
      else if c = 'f' then readWord ['a', 'l', 's', 'e'] (.bool false) cs
      else if c = 'N' then readWord ['a', 'N'] (.number .nonFinite) cs
      else readNumber (c :: cs)

def readItems : ℕ → List Char → Option (List Value × List Char)
  | 0, _ => none
  | n + 1, cs =>
      match cs with
      | ']' :: cs => some ([], cs)
      | ',' :: cs => do
          let (v, cs) ← readValue n cs
          let (vs, cs) ← readItems n cs
          return (v :: vs, cs)
      | _ => none

def readFields : ℕ → List Char → Option (List (String × Value) × List Char)
  | 0, _ => none
  | n + 1, cs =>
      match cs with
      | '\x7d' :: cs => some ([], cs)
      | ',' :: cs => do
          let (k, cs) ← readKey cs
          let (v, cs) ← readValue n cs
          let (fields, cs) ← readFields n cs
          return ((k, v) :: fields, cs)
      | _ => none

end

/-- `json.loads` of a text that `json.dumps` made. -/
def loads (s : String) : Except Exc Value :=
  match readValue s.toList.length s.toList with
  | some (v, []) => .ok v
  | _ => .error (valueError "Expecting value")

end MoomooMcp.Json
