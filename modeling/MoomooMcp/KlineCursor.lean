import MoomooMcp.Base64
import MoomooMcp.Calendar
import MoomooMcp.QuerySnapshots

namespace MoomooMcp

namespace KlineCursor

open Intent Json Calendar OrderRules

abbrev Bytes := List UInt8

def cursorVersion : ℤ := 1

def maxCursorChars : ℕ := 8192

def boundFilters : List String := ["code", "ktype", "start", "end", "max_count", "autype"]

def defaultRangeDays : ℕ := 365

/-- The filters as the caller supplied them. No integer of a request has more digits
than can be read. -/
structure KlineQuery where
  code : String
  ktype : String
  start : Option String
  end_ : Option String
  maxCount : ℤ
  autype : String
  readable : (Nat.toDigits 10 maxCount.natAbs).length ≤ 4300
  deriving DecidableEq

def integer (n : ℤ) : Value := .number (.finite ⟨n, 0⟩)

def optional : Option String → Value
  | none => .null
  | some s => .text s

def KlineQuery.fields (q : KlineQuery) : Fields :=
  [("code", .text q.code), ("ktype", .text q.ktype), ("start", optional q.start), ("end", optional q.end_),
    ("max_count", integer q.maxCount), ("autype", .text q.autype)]

/-- A window of dates. -/
structure Window where
  start : String
  end_ : String
  deriving DecidableEq, Repr

def parseDate (field value : String) : Except Exc Date :=
  match Date.strptime (Text.strip value.toList) with
  | some d => .ok d
  | none => .error (valueError (field ++ " must be a date in 'YYYY-MM-DD' format, got '" ++ value ++ "'."))

def optionalDate (field : String) : Option String → Except Exc (Option Date)
  | none => .ok none
  | some value => (parseDate field value).map some

def validateDateRange (start end_ : Option String) : Except Exc (Option Date × Option Date) := do
  let parsedStart ← optionalDate "start" start
  let parsedEnd ← optionalDate "end" end_
  match parsedStart, parsedEnd with
  | some s, some e =>
      check (!e.before s) ("start (" ++ s.isoformat ++ ") is after end (" ++ e.isoformat ++ "); the range is empty.")
      return (some s, some e)
  | _, _ => return (parsedStart, parsedEnd)

/-- Adding or subtracting a span can leave the years there are. -/
def shifted : Option Date → Except Exc Date
  | some d => .ok d
  | none => .error ⟨.other, "date value out of range", false⟩

/-- Resolve an omitted date bound the way the SDK would, but only once. -/
def resolveDateRange (start end_ : Option String) (today : Date) : Except Exc Window := do
  match ← validateDateRange start end_ with
  | (some s, some e) => return ⟨s.isoformat, e.isoformat⟩
  | (none, some e) => return ⟨(← shifted (e.earlier defaultRangeDays)).isoformat, e.isoformat⟩
  | (some s, none) => return ⟨s.isoformat, (← shifted (s.later defaultRangeDays)).isoformat⟩
  | (none, none) => return ⟨(← shifted (today.earlier defaultRangeDays)).isoformat, today.isoformat⟩

def envelope (token : Bytes) (query : KlineQuery) (resolved : Window) : Fields :=
  [("v", integer cursorVersion), ("q", .object (boundFilters.map (fun name => (name, Value.get query.fields name)))),
    ("r", .object [("start", .text resolved.start), ("end", .text resolved.end_)]),
    ("k", .text (String.ofList (Base64.encode token)))]

def encodeCursor (token : Bytes) (query : KlineQuery) (resolved : Window) : Except Exc String := do
  let payload ← dumps (.object (envelope token query resolved))
  return String.ofList (Base64.urlEncode payload.toUTF8.data.toList)

def isAscii (cs : List Char) : Bool := cs.all (fun c => c.toNat < 128)

/-- `json.loads` of bytes. Texts are read in UTF-8 only. -/
def loadsBytes (bytes : Bytes) : Option Value :=
  (String.fromUTF8? ⟨bytes.toArray⟩).bind (fun s => (loads s).toOption)

def readEnvelope (cursor : String) : Option Value :=
  if isAscii cursor.toList then (Base64.urlDecode cursor.toList).bind loadsBytes else none

def decodeToken (token : String) : Option Bytes :=
  if isAscii token.toList then Base64.decode true token.toList else none

def repr : Value → String
  | .text s => "'" ++ s ++ "'"
  | v => v.str

def mismatched (bound : Fields) (query : KlineQuery) : List String :=
  boundFilters.filter (fun name => !same (Value.get bound name) (Value.get query.fields name))

def mismatch (bound : Fields) (query : KlineQuery) (name : String) : String :=
  name ++ "=" ++ repr (Value.get query.fields name) ++ " (cursor: " ++ repr (Value.get bound name) ++ ")"

def versionMessage (version : Value) : String :=
  "cursor has version " ++ repr version ++ ", but this server issues version " ++ toString cursorVersion ++
    ". Start the query again without a cursor."

def mismatchMessage (bound : Fields) (query : KlineQuery) : String :=
  "cursor belongs to a different query and cannot continue this one: " ++
    ", ".intercalate ((mismatched bound query).map (mismatch bound query)) ++
    ". Changing a filter starts a new query, so omit the cursor."

/-- The token and the range of an envelope whose version and parts are as they should be. -/
def openEnvelope (bound resolved : Fields) (token : String) (query : KlineQuery) : Except Exc (Bytes × Window) := do
  check (mismatched bound query = []) (mismatchMessage bound query)
  match Value.get resolved "start", Value.get resolved "end" with
  | .text start, .text end_ =>
      match decodeToken token with
      | some bytes => return (bytes, ⟨start, end_⟩)
      | none => .error (valueError "cursor's continuation token is not decodable.")
  | _, _ => .error (valueError "cursor is missing its resolved date range.")

/-- Validate a cursor against the filters of this call, and return its token and range. -/
def decodeCursor (cursor : String) (query : KlineQuery) : Except Exc (Bytes × Window) := do
  check (Text.strip cursor.toList ≠ []) "cursor must be a non-empty string from a previous page."
  check (cursor.length ≤ maxCursorChars) ("cursor is " ++ toString cursor.length ++ " characters, above the " ++
    toString maxCursorChars ++ "-character limit; it was not produced by this server.")
  match readEnvelope cursor with
  | none =>
      .error (valueError ("cursor is malformed. Pass back the next_cursor value from the previous page unchanged, " ++
        "or omit it to start a new query."))
  | some (.object fields) => do
      check (same (Value.get fields "v") (integer cursorVersion)) (versionMessage (Value.get fields "v"))
      match Value.get fields "q", Value.get fields "r", Value.get fields "k" with
      | .object bound, .object resolved, .text token => openEnvelope bound resolved token query
      | .object _, .object _, _ => .error (valueError "cursor is missing its continuation token.")
      | _, _, _ => .error (valueError "cursor is missing its bound query.")
  | some _ => .error (valueError "cursor does not contain a continuation envelope.")

end KlineCursor

namespace MarketData

open Intent Calendar KlineCursor

/-- What the SDK is asked. -/
structure KlineRequest where
  code : String
  start : String
  end_ : String
  ktype : String
  autype : String
  maxCount : ℤ
  pageReqKey : Option Bytes
  deriving DecidableEq

inductive Payload (Row : Type)
  | missing
  | frame (rows : List Row)
  | other (typeName : String)

/-- An answer of the SDK, which says why it has no data or comes with the continuation. -/
inductive Reply (Row : Type)
  | refused (message : String)
  | received (data : Payload Row) (next : Option Bytes)

/-- The market data of a session: whether it is connected, the names that the SDK has
for intervals and adjustments, with their values, and the dispatcher with the SDK behind it. -/
structure Service (Row : Type) where
  connected : Bool
  klineTypes : List String
  adjustmentTypes : List String
  klType : String → String
  auType : String → String
  requestHistoryKline : KlineRequest → Except Exc (Reply Row)

structure KlinePage (Row : Type) where
  data : List Row
  nextCursor : Option String
  hasMore : Bool

variable {Row : Type}

def validateCandleFilters (s : Service Row) (ktype autype : String) : Except Exc (String × String) := do
  let interval ← TradeQueries.validateChoice "ktype" s.klineTypes (.text ktype)
  let adjustment ← TradeQueries.validateChoice "autype" s.adjustmentTypes (.text autype)
  return (s.klType interval, s.auType adjustment)

/-- What the service asks for one page. -/
def klineRequest (s : Service Row) (query : KlineQuery) (resolved : Window) (key : Option Bytes) :
    Except Exc KlineRequest := do
  if !s.connected then .error ⟨.runtime, "Quote context not connected", false⟩
  let (ktype, autype) ← validateCandleFilters s query.ktype query.autype
  return ⟨query.code, resolved.start, resolved.end_, ktype, autype, query.maxCount, key⟩

/-- What the service makes of the answer. -/
def klineRows : Reply Row → Except Exc (List Row × Option Bytes)
  | .refused message => .error ⟨.runtime, "request_history_kline failed: " ++ message, false⟩
  | .received .missing next => .ok ([], next)
  | .received (.frame rows) next => .ok (rows, next)
  | .received (.other typeName) _ =>
      .error ⟨.runtime, "request_history_kline reported success but returned " ++ typeName ++ ", expected a DataFrame", false⟩

/-- The page to ask for, and its window. -/
def resolveCursor (today : Date) (query : KlineQuery) : Option String → Except Exc (Option Bytes × Window)
  | none => do return (none, ← resolveDateRange query.start query.end_ today)
  | some cursor => do
      let (token, resolved) ← decodeCursor cursor query
      return (some token, resolved)

/-- Everything before the SDK is asked. -/
def prepare (s : Service Row) (today : Date) (query : KlineQuery) (cursor : Option String) :
    Except Exc (Window × KlineRequest) := do
  let _ ← validateCandleFilters s query.ktype query.autype
  let (key, resolved) ← resolveCursor today query cursor
  return (resolved, ← klineRequest s query resolved key)

def nextCursor (query : KlineQuery) (resolved : Window) : Option Bytes → Except Exc (Option String)
  | none => .ok none
  | some token => (encodeCursor token query resolved).map some

def klinePage (query : KlineQuery) (resolved : Window) (answer : Except Exc (Reply Row)) : Except Exc (KlinePage Row) := do
  let (rows, next) ← klineRows (← answer)
  let cursor ← nextCursor query resolved next
  return ⟨rows, cursor, cursor.isSome⟩

/-- The requests that one call sends to the SDK, and what it returns. -/
def getHistoricalKlinesPage (s : Service Row) (today : Date) (query : KlineQuery) (cursor : Option String) :
    List KlineRequest × Except Exc (KlinePage Row) :=
  match prepare s today query cursor with
  | .error e => ([], .error e)
  | .ok (resolved, request) => ([request], klinePage query resolved (s.requestHistoryKline request))

end MarketData

end MoomooMcp
