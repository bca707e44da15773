import MoomooMcp.OrderRules

namespace MoomooMcp.TradeEvents

open Intent

abbrev Fields := List (String × Value)

def eventFields : List String :=
  ["order_id", "deal_id", "code", "order_type", "order_status", "status", "trd_side", "qty", "price", "dealt_qty",
    "dealt_avg_price", "create_time", "updated_time", "time_in_force", "session", "currency"]

def identifiers : List String := ["order_id", "deal_id"]

/-- Preserve integer precision and refuse identifiers already made lossy. -/
def exactIdentifier (v : Value) : Except Exc String :=
  let text :=
    match v with
    | .number (.finite d) => if d.isInt then some d.text else none
    | .text s => some s
    | _ => none
  match text with
  | none => .error (valueError "Callback identifiers must be exact integers or strings")
  | some s =>
      if Text.isDecimal s && decide (s.length ≤ 4300) && decide (0 < Text.toNat s) then .ok s
      else .error (valueError "Callback identifiers must be positive decimal identifiers")

/-- What is kept of a value that no identifier names. -/
def scalar : Value → Value
  | .text s => .text (String.ofList (s.toList.take 256))
  | .number .nonFinite | .list _ | .object _ => .null
  | v => v

/-- The payload of a row, or nothing where an identifier in it is malformed. -/
def payload (row : Fields) : List String → Except Exc Fields
  | [] => .ok []
  | name :: names =>
      match row.lookup name with
      | none => payload row names
      | some v =>
          if name ∈ identifiers then do
            let identifier ← exactIdentifier v
            return (name, .text identifier) :: (← payload row names)
          else do return (name, scalar v) :: (← payload row names)

structure Event where
  sequence : ℕ
  eventType : String
  observedAt : String
  accId : String
  trdEnv : String
  data : Fields

/-- The bounds of a buffer, which its constructor checks. -/
structure Bounds where
  maxEvents : ℕ
  retentionSeconds : ℚ
  maxEvents_pos : 0 < maxEvents
  retention_pos : 0 < retentionSeconds

/-- A short process-local ring, its oldest event first, each with the clock reading it was kept at. -/
structure Buffer where
  epoch : Epoch
  bounds : Bounds
  events : List (ℚ × Event) := []
  sequence : ℕ := 0
  accepting : Bool := true
  reconnects : ℕ := 0

def Buffer.resume (b : Buffer) : Buffer := { b with accepting := true }

def Buffer.close (b : Buffer) : Buffer := { b with accepting := false, events := [] }

def Buffer.markReconnect (b : Buffer) : Buffer := { b with reconnects := b.reconnects + 1 }

def Buffer.expire (b : Buffer) (now : ℚ) : Buffer :=
  { b with events := b.events.dropWhile (fun e => b.bounds.retentionSeconds ≤ now - e.1) }

/-- Append to a ring of bounded length, which forgets its oldest member when it is full. -/
def Buffer.push (b : Buffer) (now : ℚ) (e : Event) : Buffer :=
  { b with events := (b.events ++ [(now, e)]).drop (b.events.length + 1 - b.bounds.maxEvents) }

/-- The environment and the payload of a row that is accepted. -/
def acceptable (kind : String) (row : Fields) : Option (String × Fields) :=
  match row.lookup "trd_env", payload row eventFields with
  | some (.text environment), .ok data =>
      if environment ≠ "REAL" ∧ environment ≠ "SIMULATE" ∨ kind = "DEAL" ∧ environment ≠ "REAL" ∨
          (data.lookup "order_id").isNone ∨ kind = "DEAL" ∧ (data.lookup "deal_id").isNone then none
      else some (environment, data)
  | _, _ => none

/-- One row of `append`. The rows of a callback are taken one at a time, and each
takes the lock of its own. -/
def Buffer.append (b : Buffer) (now : ℚ) (observedAt kind : String) (account : Value) (row : Fields) : Buffer :=
  match exactIdentifier account, acceptable kind row with
  | .ok accountId, some (environment, data) =>
      if (kind ≠ "ORDER" ∧ kind ≠ "DEAL") ∨ b.accepting = false then b
      else
        let kept := b.expire now
        { kept with sequence := b.sequence + 1 }.push now ⟨b.sequence + 1, kind, observedAt, accountId, environment, data⟩
  | _, _ => b

structure Page where
  eventEpoch : Epoch
  trdEnv : String
  accId : String
  events : List Event
  nextSequence : ℕ
  hasMore : Bool
  oldestSequence : ℕ
  latestSequence : ℕ
  retentionGap : Bool
  restartGap : Bool
  reconnectCount : ℕ

/-- Where a reader continues: after the last event of a page that is not the last
one, else after everything. -/
def nextSequence (b : Buffer) (selected : List Event) (limit : ℕ) : ℕ :=
  if limit < selected.length then ((selected.take limit).getLast?).elim b.sequence Event.sequence else b.sequence

def Buffer.oldest (b : Buffer) : ℕ := (b.events.head?).elim (b.sequence + 1) (fun e => e.2.sequence)

def Buffer.selected (b : Buffer) (after : ℕ) (environment accountId : String) : List Event :=
  (b.events.map (·.2)).filter (fun e => after < e.sequence && (e.trdEnv = environment && e.accId = accountId))

def Buffer.page (b : Buffer) (environment accountId : String) (after : ℕ) (restarted : Bool) (limit : ℕ) : Page :=
  let selected := b.selected after environment accountId
  ⟨b.epoch, environment, accountId, selected.take limit, nextSequence b selected limit, decide (limit < selected.length),
    b.oldest, b.sequence, decide (after < b.oldest - 1), restarted, b.reconnects⟩

/-- A position in the events of a process, as a reader presents it. -/
structure Cursor where
  eventEpoch : Option Epoch
  afterSequence : ℤ

def Buffer.read (b : Buffer) (now : ℚ) (environment : String) (account : Value) (cursor : Cursor) (limit : ℤ) :
    Except Exc Page × Buffer :=
  match exactIdentifier account with
  | .error e => (.error e, b)
  | .ok accountId =>
      if environment ≠ "REAL" ∧ environment ≠ "SIMULATE" then
        (.error (valueError "trd_env must be REAL or SIMULATE"), b)
      else if cursor.afterSequence < 0 then
        (.error (valueError "after_sequence must be a non-negative integer"), b)
      else if limit < 1 ∨ 200 < limit then (.error (valueError "limit must be an integer from 1 to 200"), b)
      else if cursor.afterSequence ≠ 0 ∧ cursor.eventEpoch = none then
        (.error (valueError "event_epoch is required with after_sequence"), b)
      else
        let kept := b.expire now
        let restarted := cursor.eventEpoch.any (fun epoch => epoch ≠ b.epoch)
        let after := if restarted then 0 else cursor.afterSequence.toNat
        if kept.sequence < after then (.error (valueError "after_sequence is beyond this event buffer"), kept)
        else (.ok (kept.page environment accountId after restarted limit.toNat), kept)

end MoomooMcp.TradeEvents
