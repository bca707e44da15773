import MoomooMcp.Accounts
import MoomooMcp.OrderRules
import MoomooMcp.OrderedDict
import MoomooMcp.ValueEquality

namespace MoomooMcp

namespace Json

/-- The bytes of a character in a JSON string that may hold any character. -/
def charSize (c : Char) : ℕ :=
  if c = '"' ∨ c = '\\' then 2
  else if c.toNat < 32 then (if c.toNat ∈ [8, 9, 10, 12, 13] then 2 else 6)
  else c.utf8Size

def textSize (s : String) : ℕ := 2 + (s.toList.map charSize).sum

mutual

/-- The bytes of a value as it is written with a blank behind commas and colons. -/
def size : Value → ℕ
  | .null => 4
  | .bool b => if b then 4 else 5
  | .number n => (numberText n).length
  | .text s => textSize s
  | .list vs => 2 + itemsSize vs + 2 * (vs.length - 1)
  | .object fields => 2 + fieldsSize fields + 2 * (fields.length - 1)

def itemsSize : List Value → ℕ
  | [] => 0
  | v :: vs => size v + itemsSize vs

def fieldsSize : Fields → ℕ
  | [] => 0
  | (k, v) :: fields => textSize k + 2 + size v + fieldsSize fields

end

end Json

namespace QuerySnapshots

open Intent Json ClientAuthorization

def maxPageSize : ℕ := 200

def maxSnapshotRows : ℕ := 10000

def maxSnapshotBytes : ℕ := 4 * 1024 * 1024

def maxCacheBytes : ℕ := 16 * 1024 * 1024

def maxSnapshots : ℕ := 16

def snapshotTtlSeconds : ℚ := 120

/-- A dictionary: no key stands in it twice, nor in a dictionary inside. -/
abbrev Query := {fields : Fields // Keyed (.object fields)}

structure QueryScope where
  source : String
  accId : String
  trdEnv : String
  filters : Fields
  coverage : String

def QueryScope.value (s : QueryScope) : Value :=
  .object [("source", .text s.source), ("acc_id", .text s.accId), ("trd_env", .text s.trdEnv),
    ("filters", .object s.filters), ("coverage", .text s.coverage)]

structure Snapshot where
  query : Query
  items : List Value
  scope : QueryScope
  fetchedAt : String
  expires : ℚ
  size : ℕ

structure QueryPage where
  items : List Value
  nextCursor : Option String
  totalRows : ℕ
  returnedRows : ℕ
  scope : QueryScope
  fetchedAt : String

def queryError (code message : String) : Exc := ⟨.runtime, "pagination: " ++ code ++ ": " ++ message, false⟩

def cursorExpired : Exc := queryError "CURSOR_EXPIRED" "snapshot expired or was evicted"

def cursorScope : Exc := queryError "CURSOR_SCOPE" "cursor belongs to another query"

def foreignCursor : Exc := valueError "cursor must be a server-issued continuation"

def validateLimit : Value → Except Exc ℕ
  | .number (.finite d) =>
      if !d.isInt then .error (valueError "limit must be an integer")
      else if d.coefficient < 1 ∨ maxPageSize < d.coefficient then
        .error (valueError ("limit must be between 1 and " ++ toString maxPageSize))
      else .ok d.coefficient.toNat
  | _ => .error (valueError "limit must be an integer")

def limitOf (query : Query) : Except Exc ℕ := do validateLimit (← Value.item query.1 "limit")

/-- The cache, with the counter of its bytes. -/
structure Cache where
  snapshots : OrderedDict String Snapshot
  bytes : ℤ

def Cache.empty : Cache := ⟨OrderedDict.empty, 0⟩

def Cache.remove (c : Cache) (key : String) : Cache :=
  match c.snapshots.get key with
  | some s => ⟨c.snapshots.erase key, c.bytes - s.size⟩
  | none => c

def Cache.expire (c : Cache) (now : ℚ) : Cache :=
  c.snapshots.rows.foldl (fun c r => if r.2.expires ≤ now then c.remove r.1 else c) c

/-- Whether another snapshot of this size would be one too many. -/
def Cache.full (c : Cache) (size : ℕ) : Prop := maxSnapshots ≤ c.snapshots.rows.length ∨ maxCacheBytes < c.bytes + size

instance (c : Cache) (size : ℕ) : Decidable (c.full size) := inferInstanceAs (Decidable (_ ∨ _))

/-- Remove the oldest snapshots, as many as there are at most, until one of this size fits. -/
def Cache.makeRoom (size : ℕ) : ℕ → Cache → Cache
  | 0, c => c
  | n + 1, c =>
      match c.snapshots.rows with
      | [] => c
      | r :: _ => if c.full size then makeRoom size n (c.remove r.1) else c

def Cache.store (c : Cache) (key : String) (s : Snapshot) : Cache := ⟨c.snapshots.set key s, c.bytes + s.size⟩

def page (grants : Grants) (s : Snapshot) (key : String) (offset limit : ℕ) : Except Exc QueryPage := do
  checkAccountAccess grants s.scope.trdEnv s.scope.accId false
  let items := (s.items.drop offset).take limit
  let following := offset + items.length
  return {
    items
    nextCursor := if following < s.items.length then some (key ++ ":" ++ toString following) else none
    totalRows := s.items.length
    returnedRows := items.length
    scope := s.scope
    fetchedAt := s.fetchedAt }

def payload (query : Query) (items : List Value) (scope : QueryScope) : Value :=
  .object [("items", .list items), ("query", .object query.1), ("scope", scope.value)]

/-- The part of a creation that needs no lock. -/
def snapshotOf (query : Query) (items : List Value) (scope : QueryScope) (fetchedAt : String) (clock : ℚ) :
    Except Exc (ℕ × Snapshot) := do
  let limit ← limitOf query
  if maxSnapshotRows < items.length then .error (queryError "SNAPSHOT_LIMIT" "too many rows; narrow the query")
  else do
    allowed (payload query items scope)
    if min maxSnapshotBytes maxCacheBytes < size (payload query items scope) then
      .error (queryError "SNAPSHOT_LIMIT" "response too large; narrow the query")
    else return (limit, ⟨query, items, scope, fetchedAt, clock + snapshotTtlSeconds, size (payload query items scope)⟩)

/-- The first page, kept under the token when there are more. -/
def create (c : Cache) (grants : Grants) (key : String) (now : ℚ) (limit : ℕ) (s : Snapshot) :
    Except Exc QueryPage × Cache :=
  if s.items.length ≤ limit then (page grants s key 0 limit, c)
  else
    let expired := c.expire now
    let room := expired.makeRoom s.size expired.snapshots.rows.length
    (page grants s key 0 limit, room.store key s)

/-- The token and the position that a cursor is made of. -/
def parseCursor (cursor : String) : Except Exc (String × ℕ) :=
  let position := String.ofList ((cursor.toList.dropWhile (· ≠ ':')).drop 1)
  if 128 < cursor.length then .error foreignCursor
  else if !cursor.toList.contains ':' || !Text.isDecimal position || decide (8 < position.length) then
    .error foreignCursor
  else .ok (String.ofList (cursor.toList.takeWhile (· ≠ ':')), Text.toNat position)

def continuePage (c : Cache) (grants : Grants) (cursor : Value) (query : Query) (now : ℚ) :
    Except Exc QueryPage × Cache :=
  match limitOf query, cursor with
  | .error e, _ => (.error e, c)
  | .ok limit, .text t =>
      match parseCursor t with
      | .error e => (.error e, c)
      | .ok (key, offset) =>
          let live := c.expire now
          match live.snapshots.get key with
          | none => (.error cursorExpired, live)
          | some s =>
              if !same (.object s.query.1) (.object query.1) then (.error cursorScope, live)
              else if offset < limit ∨ s.items.length ≤ offset ∨ offset % limit ≠ 0 then
                (.error (valueError "cursor contains an invalid page position"), live)
              else (page grants s key offset limit, live)
  | .ok _, _ => (.error foreignCursor, c)

end QuerySnapshots

namespace TradeQueries

open Intent Json ClientAuthorization QuerySnapshots

inductive Method
  | ordersPage
  | dealsPage
  | historyOrdersPage
  | historyDealsPage
  deriving DecidableEq, Repr

def Method.name : Method → String
  | .ordersPage => "get_orders_page"
  | .dealsPage => "get_deals_page"
  | .historyOrdersPage => "get_history_orders_page"
  | .historyDealsPage => "get_history_deals_page"

def Method.deals : Method → Bool
  | .dealsPage | .historyDealsPage => true
  | .ordersPage | .historyOrdersPage => false

def Method.source : Method → String
  | .ordersPage => "CURRENT_ORDERS"
  | .dealsPage => "CURRENT_DEALS"
  | .historyOrdersPage => "HISTORY_ORDERS"
  | .historyDealsPage => "HISTORY_DEALS"

/-- Normalize a value to one of those allowed, or reject it. -/
def validateChoice (field : String) (names : List String) : Value → Except Exc String
  | .text s =>
      if Text.normalize s ∈ names then .ok (Text.normalize s)
      else .error (valueError (field ++ " must be one of " ++ toString names ++ ", got '" ++ s ++ "'."))
  | v => .error (valueError (field ++ " must be one of " ++ toString names ++ ", got " ++ v.typeName ++ "."))

def requireReal (environment : String) : Except Exc Unit :=
  if environment = "REAL" then .ok ()
  else .error (valueError ("Deal and fee queries are supported only for REAL accounts; " ++
    "use order queries for SIMULATE execution quantities"))

/-- Parse an account identifier without passing through floating point; zero is one. -/
def exactAccountId : Value → Except Exc Account
  | .number (.finite d) =>
      if !d.isInt then .error (valueError "acc_id must be an integer or decimal string.")
      else if d.coefficient < 0 then .error (valueError "acc_id must be a non-negative integer.")
      else .ok d.coefficient.toNat
  | .text s => Accounts.exactAccountId s
  | _ => .error (valueError "acc_id must be an integer or decimal string.")

/-- `fields[key] = v`. The order of a query's fields shows nowhere. -/
def put (fields : Fields) (key : String) (v : Value) : Fields := fields.filter (fun p => p.1 ≠ key) ++ [(key, v)]

/-- The query that a cursor is bound to: everything but the cursor, with the
environment and the account in one spelling. -/
def queryFields (method : Method) (params : Fields) (environment : String) (account : Account) : Fields :=
  put (put (put (params.filter (fun p => p.1 ≠ "cursor")) "method" (.text method.name))
    "trd_env" (.text environment)) "acc_id" (.text (toString account))

def scopeOf (method : Method) (params : Fields) (environment : String) (account : Account) : QueryScope where
  source := method.source
  accId := toString account
  trdEnv := environment
  filters := params.filter (fun p => p.1 ∉ ["acc_id", "trd_env", "limit", "cursor"])
  coverage :=
    if method.source = "CURRENT_ORDERS" then
      "Provider current orders: open orders and recently terminal orders"
    else "Provider-returned rows within the requested account and filters; not proof of lifetime completeness"

/-- What the gateway answers: the account the rows are of, their views, and when. -/
structure Fetched where
  account : Account
  views : List Value
  fetchedAt : String

theorem keyed_filter {fields : Fields} (h : Keyed (.object fields)) (keep : String × Value → Bool) :
    Keyed (.object (fields.filter keep)) := by
  refine ⟨h.1.sublist (List.filter_sublist.map Prod.fst), keyedFields_iff.mpr (fun p hp => ?_)⟩
  exact keyedFields_iff.mp h.2 p (List.mem_of_mem_filter hp)

theorem keyed_put {fields : Fields} (h : Keyed (.object fields)) (key s : String) :
    Keyed (.object (put fields key (.text s))) := by
  have hrest := keyed_filter h (fun p => p.1 ≠ key)
  constructor
  · rw [keys, put, List.map_append, List.map_singleton]
    refine hrest.1.append (List.nodup_singleton _) (List.disjoint_singleton.mpr ?_)
    intro hmem
    obtain ⟨p, hp, hk⟩ := List.mem_map.mp hmem
    exact absurd hk (by simpa using (List.mem_filter.mp hp).2)
  · refine keyedFields_iff.mpr (fun p hp => ?_)
    rcases List.mem_append.mp hp with hp | hp
    · exact keyedFields_iff.mp hrest.2 p hp
    · rw [List.mem_singleton.mp hp]
      exact trivial

def query (method : Method) (params : Query) (environment : String) (account : Account) : Query :=
  ⟨queryFields method params.1 environment account,
    keyed_put (keyed_put (keyed_put (keyed_filter params.2 _) _ _) _ _) _ _⟩

/-- A call, with what the gateway answers it, the token it draws and what the clock
shows when it makes a snapshot and when it holds the lock. -/
structure Call where
  grants : Grants
  method : Method
  params : Query
  answer : Except Exc Fetched
  clock : ℚ
  token : String
  now : ℚ

/-- What a call asks of the snapshots. -/
inductive Request
  | create (limit : ℕ) (s : Snapshot)
  | proceed (cursor : Value) (query : Query)

/-- The checks of a call, and the query it makes of its parameters. -/
def prepare (call : Call) : Except Exc (String × Query) := do
  let _ ← validateLimit (← Value.item call.params.1 "limit")
  let environment ← validateChoice "trd_env" ["REAL", "SIMULATE"] (← Value.item call.params.1 "trd_env")
  if call.method.deals then requireReal environment
  let account ← exactAccountId (← Value.item call.params.1 "acc_id")
  return (environment, query call.method call.params environment account)

/-- Everything before the snapshots are locked. -/
def request (call : Call) : Except Exc Request := do
  let (environment, query) ← prepare call
  match Value.get call.params.1 "cursor" with
  | .null =>
      let fetched ← call.answer
      let scope := scopeOf call.method call.params.1 environment fetched.account
      let (limit, s) ← snapshotOf query fetched.views scope fetched.fetchedAt call.clock
      return .create limit s
  | cursor => return .proceed cursor query

def page (c : Cache) (call : Call) : Except Exc QueryPage × Cache :=
  match request call with
  | .error e => (.error e, c)
  | .ok (.create limit s) => create c call.grants call.token call.now limit s
  | .ok (.proceed cursor query) => continuePage c call.grants cursor query call.now

/-- A token of the process: 24 random bytes, in letters that a cursor's colon is not among. -/
def Token (token : String) : Prop := token.length = 32 ∧ ':' ∉ token.toList

instance (token : String) : Decidable (Token token) := inferInstanceAs (Decidable (_ ∧ _))

/-- The snapshot a call makes, under the token it draws. -/
def Call.draws (call : Call) : List (String × Snapshot) :=
  match request call with
  | .ok (.create _ s) => [(call.token, s)]
  | _ => []

/-- The cache, and every snapshot ever made. -/
structure System where
  cache : Cache
  drawn : List (String × Snapshot)

def System.initial : System := ⟨Cache.empty, []⟩

def next (s : System) (call : Call) : Option System := some ⟨(page s.cache call).2, s.drawn ++ call.draws⟩

/-- No token is drawn twice. -/
def Fresh (s : System) (call : Call) (_ : System) : Prop :=
  ∀ p ∈ call.draws, Token p.1 ∧ p.1 ∉ s.drawn.map Prod.fst

end TradeQueries

end MoomooMcp
