import Mathlib.Data.Nat.Notation

namespace MoomooMcp.Calendar

def isLeap (year : ℕ) : Bool := year % 4 = 0 && (year % 100 ≠ 0 || year % 400 = 0)

def daysIn (year month : ℕ) : ℕ :=
  if month = 2 then (if isLeap year then 29 else 28) else if month ∈ [4, 6, 9, 11] then 30 else 31

/-- A day of the years 1 to 9999. -/
structure Date where
  year : ℕ
  month : ℕ
  day : ℕ
  valid : 1 ≤ year ∧ year ≤ 9999 ∧ 1 ≤ month ∧ month ≤ 12 ∧ 1 ≤ day ∧ day ≤ daysIn year month
  deriving DecidableEq

def Date.of? (year month day : ℕ) : Option Date :=
  if h : 1 ≤ year ∧ year ≤ 9999 ∧ 1 ≤ month ∧ month ≤ 12 ∧ 1 ≤ day ∧ day ≤ daysIn year month then
    some ⟨year, month, day, h⟩
  else none

namespace Date

def next (d : Date) : Option Date :=
  if d.day < daysIn d.year d.month then of? d.year d.month (d.day + 1)
  else if d.month < 12 then of? d.year (d.month + 1) 1
  else of? (d.year + 1) 1 1

def prev (d : Date) : Option Date :=
  if 1 < d.day then of? d.year d.month (d.day - 1)
  else if 1 < d.month then of? d.year (d.month - 1) (daysIn d.year (d.month - 1))
  else of? (d.year - 1) 12 31

/-- The day so many days later, or none when the years run out. -/
def later (d : Date) : ℕ → Option Date
  | 0 => some d
  | n + 1 => (d.later n).bind next

def earlier (d : Date) : ℕ → Option Date
  | 0 => some d
  | n + 1 => (d.earlier n).bind prev

def before (d e : Date) : Bool :=
  d.year < e.year || (d.year = e.year && (d.month < e.month || (d.month = e.month && d.day < e.day)))

def padded (width n : ℕ) : List Char :=
  List.replicate (width - (Nat.toDigits 10 n).length) '0' ++ Nat.toDigits 10 n

/-- YYYY-MM-DD. -/
def isoformat (d : Date) : String :=
  String.ofList (padded 4 d.year ++ '-' :: (padded 2 d.month ++ '-' :: padded 2 d.day))

/-- One or two digits. -/
def short (cs : List Char) : Option ℕ :=
  if (cs.length = 1 ∨ cs.length = 2) ∧ cs.all Char.isDigit then some (Nat.ofDigitChars 10 cs 0) else none

/-- The day of a text in the format %Y-%m-%d, where a day of one digit may have a blank before it. -/
def strptime (cs : List Char) : Option Date :=
  let year := cs.takeWhile (· ≠ '-')
  let rest := (cs.dropWhile (· ≠ '-')).drop 1
  let month := rest.takeWhile (· ≠ '-')
  match rest.dropWhile (· ≠ '-') with
  | '-' :: ' ' :: [c] => dateOf year month [c]
  | '-' :: day => dateOf year month day
  | _ => none
where
  dateOf (year month day : List Char) : Option Date := do
    if year.length ≠ 4 ∨ !year.all Char.isDigit then none
    of? (Nat.ofDigitChars 10 year 0) (← short month) (← short day)

example : ((strptime "2024-3-01".toList).bind (·.earlier 1)).map isoformat = some "2024-02-29" := by decide

end Date

end MoomooMcp.Calendar
