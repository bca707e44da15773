import MoomooMcp.OrderRules
import MoomooMcp.OrderedDict

namespace MoomooMcp.InstrumentMetadata

open OrderRules

abbrev Fields := List (String × Value)

/-- A valuation fact could not be established for one of the order's codes. -/
def lookupError (message : String) : Exc := ⟨.runtime, message, false⟩

structure StaticFacts where
  classification : String
  lotSize : Option Decimal
  expiresAt : ℚ
  raw : Fields
  observedAt : String

abbrev Facts := OrderedDict String StaticFacts

/-- Reduce a gateway quote field to a positive finite number, or to none. -/
def normalizeQuote (v : Value) : Except Exc (Option Decimal) := do
  return (← optionalFloat v).filter (fun d => 0 < d.value)

/-- A row of a reply, with what the two clocks show when it is taken up. -/
structure Row where
  fields : Fields
  clock : ℚ
  observedAt : String

/-- What comes of one request, or of the wait for its turn. -/
inductive Reply
  | raised (e : Exc)
  | failed (data : String)
  | unreadable (typeName : String)
  | answered (rows : List Row)

/-- Turn one SDK response into rows, or refuse. -/
def Reply.rows (operation : String) : Reply → Except Exc (List Row)
  | .raised e => .error e
  | .failed data => .error (lookupError (operation ++ " failed: " ++ data))
  | .unreadable typeName =>
      .error (lookupError (operation ++ " reported success but returned " ++ typeName ++ ", which carries no rows"))
  | .answered rows => .ok rows

structure InstrumentAdapter where
  metadataTtl : ℚ
  metadataCapacity : ℕ
  ttl_nonneg : 0 ≤ metadataTtl
  capacity_pos : 1 ≤ metadataCapacity

def code (fields : Fields) : String := (Value.get fields "code").str

/-- The security type a row reports, when it reports one. -/
def reported (fields : Fields) : Option String :=
  match Value.get fields "stock_type" with
  | .text s => if Text.strip s.toList = [] then none else some s
  | _ => none

def Row.facts (a : InstrumentAdapter) (group : List String) (row : Row) : Except Exc (Option (String × StaticFacts)) :=
  match reported row.fields with
  | none => .ok none
  | some kind =>
      if code row.fields ∈ group then do
        let lotSize ← normalizeQuote (Value.get row.fields "lot_size")
        return some (code row.fields,
          ⟨Text.normalize kind, lotSize, row.clock + a.metadataTtl, row.fields, row.observedAt⟩)
      else .ok none

/-- The facts that one request yields, in the order of the rows. -/
def readReply (a : InstrumentAdapter) (market : String) (group : List String) (reply : Reply) :
    Except Exc (List (String × StaticFacts)) := do
  let rows ← reply.rows ("get_stock_basicinfo(" ++ market ++ ")")
  let facts ← rows.mapM (Row.facts a group)
  return facts.reduceOption

def market (code : String) : String := Text.normalize (String.ofList (code.toList.takeWhile (· ≠ '.')))

def marketless (code : String) : Bool := ((code.toList.dropWhile (· ≠ '.')).drop 1).isEmpty

def byMarket : List String → OrderedDict String (List String) → Except Exc (OrderedDict String (List String))
  | [], groups => .ok groups
  | code :: codes, groups =>
      if marketless code then
        .error (lookupError ("'" ++ code ++ "' carries no market prefix, so its classification cannot be requested"))
      else byMarket codes (groups.set (market code) ((groups.get (market code)).getD [] ++ [code]))

variable {Ctx : Type}

structure Request (Ctx : Type) where
  context : Ctx
  market : String
  codes : List String
  reply : Reply

/-- How the gateway answers the requests of one lookup, at most one for a market. -/
abbrev Provider := String → List String → Reply

def askMarkets (a : InstrumentAdapter) (ctx : Ctx) (ask : Provider) :
    List (String × List String) → Facts → Except Exc Facts × List (Request Ctx)
  | [], found => (.ok found, [])
  | (market, group) :: rest, found =>
      let request : Request Ctx := ⟨ctx, market, group, ask market group⟩
      match readReply a market group (ask market group) with
      | .error e => (.error e, [request])
      | .ok facts =>
          let (result, requests) := askMarkets a ctx ask rest (found.setAll facts)
          (result, request :: requests)

/-- Ask for the classification of exactly these codes, in one call for each market. -/
def classifications (a : InstrumentAdapter) (ctx : Ctx) (ask : Provider) (codes : List String) :
    Except Exc Facts × List (Request Ctx) :=
  match byMarket codes OrderedDict.empty with
  | .error e => (.error e, [])
  | .ok groups => askMarkets a ctx ask groups.rows OrderedDict.empty

/-- The cache, with the context that its weak reference leads to. -/
structure State (Ctx : Type) where
  context : Option Ctx
  metadata : Facts

def State.init : State Ctx := ⟨none, OrderedDict.empty⟩

section Lookup

variable [DecidableEq Ctx] (weakrefable : Ctx → Bool)

/-- Forget what was read through another context, and refer to this one where it can be
referred to. Whether facts may be cached comes with it. -/
def attach (s : State Ctx) (ctx : Ctx) : State Ctx × Bool :=
  if s.context = some ctx then (s, true)
  else (⟨if weakrefable ctx then some ctx else none, OrderedDict.empty⟩, weakrefable ctx)

/-- What a lookup finds in the cache: everything that has not expired. -/
def live (s : State Ctx) (ctx : Ctx) (now : ℚ) : Facts :=
  (attach weakrefable s ctx).1.metadata.restrict (fun _ item => now < item.expiresAt)

structure Outcome (Ctx : Type) where
  result : Except Exc Facts
  state : State Ctx
  requests : List (Request Ctx)

/-- Cache only basic classification/lot metadata, never market quotes. The lock is held
from the first line to the last, so that a lookup is one step. -/
def staticFacts (a : InstrumentAdapter) (s : State Ctx) (ctx : Ctx) (codes : List String) (now : ℚ) (ask : Provider) :
    Outcome Ctx :=
  let (attached, cacheable) := attach weakrefable s ctx
  let found := OrderedDict.collect codes (live weakrefable s ctx now).get
  let moved := (found.rows.map Prod.fst).foldl OrderedDict.moveToEnd (live weakrefable s ctx now)
  let missing := codes.filter (fun code => (found.get code).isNone)
  if missing = [] then ⟨.ok found, ⟨attached.context, moved⟩, []⟩
  else
    match classifications a ctx ask missing with
    | (.error e, requests) => ⟨.error e, ⟨attached.context, moved⟩, requests⟩
    | (.ok fresh, requests) =>
        let kept :=
          if cacheable ∧ 0 < a.metadataTtl then (moved.setAllLast fresh.rows).trim a.metadataCapacity else moved
        ⟨.ok (found.setAll fresh.rows), ⟨attached.context, kept⟩, requests⟩

/-- The states of the cache over lookups through contexts that come and go, with the requests made so far. -/
inductive Reachable (a : InstrumentAdapter) (provider : Ctx → Provider → Prop) : List (Request Ctx) → State Ctx → Prop
  | init : Reachable a provider [] State.init
  | collected {log s} (h : Reachable a provider log s) : Reachable a provider log { s with context := none }
  | lookup {log s} (ctx codes now ask) (h : Reachable a provider log s) (hask : provider ctx ask) :
      Reachable a provider (log ++ (staticFacts weakrefable a s ctx codes now ask).requests)
        (staticFacts weakrefable a s ctx codes now ask).state

end Lookup

end MoomooMcp.InstrumentMetadata
