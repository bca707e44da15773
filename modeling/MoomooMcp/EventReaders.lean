import MoomooMcp.Machine
import MoomooMcp.TradeEvents
import MoomooMcp.WindowedLog

namespace MoomooMcp.EventReaders

open Intent TradeEvents WindowedLog Machine

/-- An accepted event, with the epoch of the process that accepted it. -/
abbrev Accepted := Epoch × Event

/-- One successful read of the consumer: its page, and what had been accepted and
what was still retained at that time. -/
structure Reading where
  page : Page
  accepted : List Accepted
  retained : List Accepted

def Reading.gap (r : Reading) : Prop := r.page.retentionGap = true ∨ r.page.restartGap = true

/-- What was accepted before a read and dropped before it returned. -/
def Reading.lost (r : Reading) (a : Accepted) : Prop := a ∈ r.accepted ∧ a ∉ r.retained

def Reading.received (r : Reading) : List Accepted := r.page.events.map (fun e => (r.page.eventEpoch, e))

/-- A consumer of one environment and account, which continues from its previous read. -/
structure Consumer where
  environment : String
  account : Value
  readings : List Reading := []

def Consumer.received (c : Consumer) : List Accepted := c.readings.flatMap Reading.received

def Consumer.cursor (c : Consumer) : Cursor :=
  match c.readings.getLast? with
  | none => ⟨none, 0⟩
  | some r => ⟨some r.page.eventEpoch, r.page.nextSequence⟩

def scope (environment : String) (account : Value) (e : Event) : Bool :=
  match exactIdentifier account with
  | .ok accountId => e.trdEnv = environment && e.accId = accountId
  | .error _ => false

def Consumer.inScope (c : Consumer) (a : Accepted) : Bool := scope c.environment c.account a.2

/-- An event that the consumer got, or one that a read at or after its drop reported. -/
def Consumer.settled (c : Consumer) (a : Accepted) : Prop :=
  a ∈ c.received ∨ ∃ r ∈ c.readings, r.lost a ∧ r.gap

/-- The events of processes that had ended before the first read are before the consumer's time. -/
def Consumer.attends (c : Consumer) (a : Accepted) : Prop :=
  ∀ r ∈ c.readings.head?, a ∈ r.accepted → a.1 = r.page.eventEpoch

/-- One buffer after another, as processes restart. `epochs` are those used so
far; `accepted` is what they accepted, in the order of acceptance. -/
structure Sys where
  buffer : Buffer
  epochs : List Epoch
  accepted : List Accepted
  consumer : Consumer

def initial (epoch : Epoch) (bounds : Bounds) (environment : String) (account : Value) : Sys :=
  ⟨⟨epoch, bounds, [], 0, true, 0⟩, [epoch], [], ⟨environment, account, []⟩⟩

inductive Action
  | append (now : ℚ) (observedAt kind : String) (account : Value) (row : Fields)
  | close
  | resume
  | markReconnect
  | restart (epoch : Epoch) (bounds : Bounds)
  | read (now : ℚ) (environment : String) (account : Value) (cursor : Cursor) (limit : ℤ)
  | poll (now : ℚ) (limit : ℤ)

def retained (b : Buffer) : List Accepted := b.events.map (fun e => (b.epoch, e.2))

/-- What a row adds to the accepted events: the event that is numbered last, if it is new. -/
def gained (b b' : Buffer) : List Accepted :=
  if b.sequence < b'.sequence then (b'.events.getLast?).toList.map (fun e => (b'.epoch, e.2)) else []

def poll (s : Sys) (now : ℚ) (limit : ℤ) : Sys :=
  match s.buffer.read now s.consumer.environment s.consumer.account s.consumer.cursor limit with
  | (.error _, b) => { s with buffer := b }
  | (.ok page, b) =>
      { s with
        buffer := b
        consumer := { s.consumer with readings := s.consumer.readings ++ [⟨page, s.accepted, retained b⟩] } }

def step (s : Sys) : Action → Option Sys
  | .append now observedAt kind account row =>
      let b := s.buffer.append now observedAt kind account row
      some { s with buffer := b, accepted := s.accepted ++ gained s.buffer b }
  | .close => some { s with buffer := s.buffer.close }
  | .resume => some { s with buffer := s.buffer.resume }
  | .markReconnect => some { s with buffer := s.buffer.markReconnect }
  | .restart epoch bounds =>
      if epoch ∈ s.epochs then none
      else some { s with buffer := ⟨epoch, bounds, [], 0, true, 0⟩, epochs := s.epochs ++ [epoch] }
  | .read now environment account cursor limit =>
      some { s with buffer := (s.buffer.read now environment account cursor limit).2 }
  | .poll now limit => some (poll s now limit)

end MoomooMcp.EventReaders
