import MoomooMcp.ControlContext
import MoomooMcp.Gateway
import MoomooMcp.Health
import MoomooMcp.PaperBoundary
import MoomooMcp.PriceGrid
import MoomooMcp.Sessions
import MoomooMcp.Settings

namespace MoomooMcp

namespace Executor

open ExecutionStore

/-- What an executor reports of its journal, with the outcomes that could not be stored. -/
def health (sh : Shared) (fault : Fault) : Except Exc Health :=
  match (read sh.store fault (sh.journal.health sh.store.reviewed)).1 with
  | .error e => if e.type = .executionStore then .ok .journalBlocked else .error e
  | .ok h => .ok (if sh.late = [] then h else .journalBlocked)

end Executor

namespace TradingCapabilities

open Intent OrderRules OrderContract Accounts ClientAuthorization PreDispatch TradingPolicy

/-- A column of a row of the broker. -/
inductive Column
  | missing
  | null
  | names (list : List String)

def Column.list : Column → List String
  | .names list => list
  | _ => []

/-- An account as the broker lists it, with the columns that tell what it may trade. -/
structure AccountRecord where
  accId : Account
  trdEnv : String
  marketAuth : Column
  trdmarketAuth : Column
  accStatus : Option String
  simAccType : Option String
  securityFirm : Option String

/-- What the resolution of an account reads of it. -/
def AccountRecord.row (r : AccountRecord) : AccountRow := ⟨r.accId, r.trdEnv, r.marketAuth.list, r.trdmarketAuth.list⟩

/-- `account.get("trdmarket_auth", account.get("market_auth"))`, where that is a list. -/
def AccountRecord.permissions (r : AccountRecord) : Option (List String) :=
  match r.trdmarketAuth, r.marketAuth with
  | .names list, _ => some list
  | .missing, .names list => some list
  | _, _ => none

/-- The service that is asked, and what its components answer meanwhile. -/
structure TradeService where
  policy : TradingPolicy.Deployment
  paper : Option Executor.Shared
  simulatedAllowlist : List Account
  real : Option Executor.Shared
  journalFault : ExecutionStore.Fault
  controls : Option (TradingControls.Store × TradingControls.Database)
  controlsFault : Bool
  execution : Gateway.Execution
  hasTradeCredential : Bool
  grants : Grants
  accounts : Except Exc (List AccountRecord)
  instruments : Option (List String → Answer (List InstrumentFacts))

/-- Why a write is refused, or would be. -/
inductive Reason
  | accountAmbiguous
  | accountUnavailable
  | accountDiscoveryUnavailable
  | marketNotAuthorized
  | accountDisabled
  | journal (state : String)
  | executionHalted
  | controlsUnavailable
  | controls (state : String)
  | operatorPaused
  | tradingModeDisallowsWrite
  | accountNotAllowlisted
  | symbolNotAllowlisted
  | outsidePaperExecutorScope
  | clientWriteNotAuthorized

def Reason.text : Reason → String
  | .accountAmbiguous => "ACCOUNT_AMBIGUOUS"
  | .accountUnavailable => "ACCOUNT_UNAVAILABLE"
  | .accountDiscoveryUnavailable => "ACCOUNT_DISCOVERY_UNAVAILABLE"
  | .marketNotAuthorized => "MARKET_NOT_AUTHORIZED"
  | .accountDisabled => "ACCOUNT_DISABLED"
  | .journal state => "EXECUTION_JOURNAL_" ++ state
  | .executionHalted => "EXECUTION_HALTED"
  | .controlsUnavailable => "TRADING_CONTROLS_UNAVAILABLE"
  | .controls state => "TRADING_CONTROLS_" ++ state
  | .operatorPaused => "OPERATOR_PAUSED"
  | .tradingModeDisallowsWrite => "TRADING_MODE_DISALLOWS_WRITE"
  | .accountNotAllowlisted => "ACCOUNT_NOT_ALLOWLISTED"
  | .symbolNotAllowlisted => "SYMBOL_NOT_ALLOWLISTED"
  | .outsidePaperExecutorScope => "OUTSIDE_PAPER_EXECUTOR_SCOPE"
  | .clientWriteNotAuthorized => "CLIENT_WRITE_NOT_AUTHORIZED"

/-- What could not be observed. -/
inductive Doubt
  | instrumentClassificationUnknown
  | marketAuthorizationUnknown
  | accountStatusUnknown
  | productSupportUnknown
  | gatewayUnlockNotObserved

def Doubt.text : Doubt → String
  | .instrumentClassificationUnknown => "INSTRUMENT_CLASSIFICATION_UNKNOWN"
  | .marketAuthorizationUnknown => "MARKET_AUTHORIZATION_UNKNOWN"
  | .accountStatusUnknown => "ACCOUNT_STATUS_UNKNOWN"
  | .productSupportUnknown => "PRODUCT_SUPPORT_UNKNOWN"
  | .gatewayUnlockNotObserved => "GATEWAY_UNLOCK_NOT_OBSERVED"

def flagged {α : Type} (yes : Bool) (a : α) : List α := if yes then [a] else []

def usTypes : List String :=
  ["NORMAL", "MARKET", "STOP", "STOP_LIMIT", "MARKET_IF_TOUCHED", "LIMIT_IF_TOUCHED", "TRAILING_STOP", "TRAILING_STOP_LIMIT"]

def limitTypes : List String := ["NORMAL", "STOP_LIMIT", "LIMIT_IF_TOUCHED", "TRAILING_STOP_LIMIT"]

def hkTypes : List String :=
  usTypes ++ ["ABSOLUTE_LIMIT", "AUCTION", "AUCTION_LIMIT", "SPECIAL_LIMIT", "SPECIAL_LIMIT_ALL"]

def documentedTypes (market : String) (classification : Option String) (env : Environment) (simAccType : Option String) :
    Option (List String) :=
  match classification.filter (· ∈ orderClassifications), env with
  | none, _ => none
  | some c, .simulate =>
      if market ∉ ["US", "HK", "CN"] ∨ (c = optionClassification ∧ market ∉ ["US", "HK"]) then none
      else if simAccType ∈ [some (if c = optionClassification then "OPTION" else "STOCK"), some "STOCK_AND_OPTION"] then
        some ["NORMAL", "MARKET"]
      else none
  | some c, .real =>
      if market = "US" then some usTypes
      else if market = "HK" then some (if c = optionClassification then limitTypes else hkTypes)
      else if market = "HKCC" ∧ c ∈ equityClassifications then some limitTypes
      else none

/-- `validate_choice("trd_env", ...)`. -/
def environmentOf (trdEnv : String) : Except Exc Environment :=
  match Environment.ofText trdEnv with
  | some env => .ok env
  | none => .error (valueError ("trd_env must be one of ['REAL', 'SIMULATE'], got '" ++ trdEnv ++ "'."))

/-- The code with its market in capitals, and the market. -/
def parseCode (code : String) : Except Exc (String × String) := do
  let text := (Settings.trim code).toList
  check (text ≠ []) "code must be a non-empty market-prefixed security code"
  let market := text.takeWhile (· ≠ '.')
  let symbol := (text.dropWhile (· ≠ '.')).drop 1
  check (text.contains '.' ∧ market ≠ [] ∧ symbol ≠ []) "code must have a market prefix, for example US.AAPL"
  return (String.ofList (market.map Char.toUpper ++ '.' :: symbol), String.ofList (market.map Char.toUpper))

def exactRow (r : AccountRecord) : Except Exc Account :=
  if r.accId = 0 then .error (valueError "acc_id must be a positive integer.") else .ok r.accId

/-- The records whose identifier, read exactly, is one of these. -/
def keepIds (keep : Account → Bool) : List AccountRecord → Except Exc (List AccountRecord)
  | [] => .ok []
  | r :: rows => do
      let id ← exactRow r
      let kept ← keepIds keep rows
      return if keep id then r :: kept else kept

namespace TradeService

variable (d : TradeService)

def accountPolicy : AccountPolicy := ⟨d.policy.mode, d.policy.realAccIds, d.simulatedAllowlist⟩

def control : ControlContext.Service :=
  ⟨⟨d.policy.requireApproval, d.policy.maxDailyNotional.map (fun cap => (cap.1, cap.2.val))⟩, d.controls.isSome⟩

def executor : Environment → Option Executor.Shared
  | .simulate => d.paper
  | .real => d.real

def readable (env : Environment) (r : AccountRecord) : Bool := accountAccessAllowed d.grants env.text (toString r.accId) false

/-- `get_accounts(trd_env=environment)`. -/
def accountsIn (env : Environment) : Except Exc (List AccountRecord) :=
  d.accounts.map (fun rows => rows.filter (fun r => r.trdEnv = env.text && accountAccessAllowed d.grants r.trdEnv (toString r.accId) false))

def eligibleRecords (env : Environment) (market : String) : Except Exc (List AccountRecord) :=
  match d.accounts with
  | .error e => .error (valueError ("Could not retrieve the account list to resolve an account: " ++ e.message))
  | .ok rows => .ok (rows.filter (fun r => eligible d.accountPolicy d.grants env.text (some market) r.row))

/-- Of the eligible accounts those of the paper executor, in its environment. -/
def onList (env : Environment) (rows : List AccountRecord) : Except Exc (List AccountRecord) :=
  if env = .simulate ∧ d.paper.isSome then keepIds d.simulatedAllowlist.contains rows else .ok rows

/-- Where no account is eligible those that were observed are taken, so that a refusal can
be explained. -/
def orObserved (env : Environment) (rows : List AccountRecord) : Except Exc (List AccountRecord) :=
  if rows.isEmpty then d.accountsIn env else .ok rows

/-- The accounts that a write could be for. -/
def candidates (env : Environment) (market : String) (requested : Account) : Except Exc (List AccountRecord) := do
  if requested ≠ 0 then keepIds (· = requested) (← d.accountsIn env)
  else
    let eligible ← d.eligibleRecords env market
    let listed ← d.onList env eligible
    let found ← d.orObserved env listed
    return found.filter (d.readable env)

end TradeService

/-- How the search for the account ended. -/
inductive Discovery
  | found (r : AccountRecord)
  | ambiguous
  | unavailable
  | failed (error : String)

def Discovery.record : Discovery → Option AccountRecord
  | .found r => some r
  | _ => none

def Discovery.reasons : Discovery → List Reason
  | .found _ => []
  | .ambiguous => [.accountAmbiguous]
  | .unavailable => [.accountUnavailable]
  | .failed _ => [.accountDiscoveryUnavailable]

def Discovery.resolvedId (requested : Account) : Discovery → Except Exc (Option Account)
  | .found r => (exactRow r).map some
  | _ => .ok (if requested = 0 then none else some requested)

structure Controls where
  state : String
  paused : Bool
  error : Option String

namespace TradeService

variable (d : TradeService)

def discover (env : Environment) (market : String) (requested : Account) : Discovery :=
  match d.candidates env market requested with
  | .error e => .failed (Health.sanitizeError e.message)
  | .ok [r] => .found r
  | .ok [] => .unavailable
  | .ok _ => .ambiguous

/-- The classification of an instrument, if exactly one fact is about it, and the error of the lookup. -/
def classify (code : String) : Option String × Option String :=
  match d.instruments with
  | none => (none, none)
  | some find =>
      match (find [code]).lift with
      | .error e => (none, some (Health.sanitizeError e.message))
      | .ok facts =>
          match facts.filter (fun fact => fact.code = code) with
          | [fact] => (fact.classification, none)
          | _ => (none, none)

def journal (env : Environment) : String × Option String :=
  match d.executor env with
  | none => ("DISABLED", none)
  | some sh =>
      match Executor.health sh d.journalFault with
      | .ok h => (h.text, none)
      | .error e => ("UNKNOWN", some (Health.sanitizeError e.message))

def controlsHealth (st : TradingControls.Store) : String := if st.closed || st.failed then "BLOCKED" else "READY"

def controlsView (env : Environment) (resolved : Option Account) : Controls :=
  match d.controls with
  | none => ⟨"DISABLED", false, none⟩
  | some (st, db) =>
      match (TradingControls.pauseState st db d.controlsFault (env, resolved.getD 0)).1 with
      | .error e => ⟨"UNKNOWN", false, some (Health.sanitizeError e.message)⟩
      | .ok paused => ⟨controlsHealth st, paused, none⟩

def halted (env : Environment) : Bool := env = .real && d.execution.halted

def modeAllowed (env : Environment) : Bool := d.policy.mode = .real || (d.policy.mode = .simulate && env = .simulate)

def accountAllowlisted (env : Environment) (account : Account) : Bool :=
  match env with
  | .real => d.policy.realAccIds.contains account
  | .simulate => d.paper.isSome && d.simulatedAllowlist.contains account

def symbolAllowed (code : String) : Bool :=
  d.policy.limits.symbolAllowlist.isEmpty || d.policy.limits.symbolAllowlist.contains code

def clientWrites (env : Environment) (resolved : Option Account) : Bool :=
  d.grants.all (fun g => decide (Permission.ofAccess env true ∈ g.permissions)) &&
    resolved.all (fun account => accountAccessAllowed d.grants env.text (toString account) true)

end TradeService

/-- What the paper executor is made for. -/
def executorScope (env : Environment) (market : String) (classification : Option String) : Bool :=
  env ≠ .simulate || (market = "US" && classification.any (· ∈ equityClassifications))

def sessionsOf (env : Environment) (market : String) (classification simAccType : Option String) : Option (List String) :=
  if market = "US" ∧ classification.any (· ∈ equityClassifications) = true then
    some ("RTH" :: match env with
      | .real => ["ETH", "OVERNIGHT", "ALL"]
      | .simulate => flagged (simAccType = some "STOCK_AND_OPTION") "ETH")
  else none

/-- Whether the account may trade the market, and whether it is active, as far as it says. -/
def authorization (market : String) (account : Option AccountRecord) : Option Bool :=
  (account.bind AccountRecord.permissions).map (fun list => list.contains market)

def active (account : Option AccountRecord) : Option Bool :=
  (account.bind AccountRecord.accStatus).bind (fun status =>
    if status = "ACTIVE" then some true else if status = "DISABLED" then some false else none)

structure Supported where
  placement : Option Bool
  orderTypes : Option (List String)
  timeInForce : List String
  sessions : Option (List String)
  dealEvents : Bool
  dealQueries : Bool
  orderFees : Option Bool

structure Allowed where
  writes : Bool
  clientWrites : Bool
  tradingMode : String
  accountAllowlisted : Option Bool
  orderTypes : Option (List String)
  timeInForce : List String
  sessions : Option (List String)
  symbolAllowlist : List String
  maxOrderQty : Option Decimal
  maxOrderNotional : List (String × Cap)
  maxDailyNotional : List (String × Cap)
  requireApproval : Bool
  reasons : List Reason

structure Ready where
  state : String
  blocked : List Reason
  unknown : List Doubt
  journalState : String
  executionHalted : Bool
  unlockStrategy : String
  controlsRequired : Bool
  controlsState : String
  operatorPaused : Bool

/-- The list that is shown: what blocks, then what is unknown. -/
def Ready.reasons (r : Ready) : List String := r.blocked.map Reason.text ++ r.unknown.map Doubt.text

structure Capabilities where
  code : String
  classification : Option String
  trdEnv : Environment
  accId : Option Account
  checkedAt : String
  supported : Supported
  allowed : Allowed
  ready : Ready
  evidenceErrors : List (String × String)

/-- What is reported of one instrument and account, once both are known as far as they can be. -/
structure Subject where
  env : Environment
  code : String
  market : String
  discovery : Discovery
  resolved : Option Account

namespace TradeService

variable (d : TradeService) (s : Subject)

def policyReasons : List Reason :=
  flagged (!d.modeAllowed s.env) .tradingModeDisallowsWrite ++
    flagged (s.resolved.any (fun account => !d.accountAllowlisted s.env account)) .accountNotAllowlisted ++
    flagged (!d.symbolAllowed s.code) .symbolNotAllowlisted ++
    flagged (!executorScope s.env s.market (d.classify s.code).1) .outsidePaperExecutorScope ++
    flagged (!d.clientWrites s.env s.resolved) .clientWriteNotAuthorized

def controlsReasons : List Reason :=
  let view := d.controlsView s.env s.resolved
  if d.controls.isNone then flagged d.control.policy.controlled .controlsUnavailable
  else flagged (view.state ≠ "READY") (.controls view.state) ++ flagged view.paused .operatorPaused

def stateReasons : List Reason :=
  s.discovery.reasons ++ flagged (authorization s.market s.discovery.record = some false) .marketNotAuthorized ++
    flagged (active s.discovery.record = some false) .accountDisabled ++
    flagged ((d.journal s.env).1 ≠ "READY") (.journal (d.journal s.env).1) ++ flagged (d.halted s.env) .executionHalted ++
    d.controlsReasons s

def orderTypes : Option (List String) :=
  documentedTypes s.market (d.classify s.code).1 s.env (s.discovery.record.bind AccountRecord.simAccType)

def doubts : List Doubt :=
  flagged (d.classify s.code).1.isNone .instrumentClassificationUnknown ++
    flagged (authorization s.market s.discovery.record).isNone .marketAuthorizationUnknown ++
    flagged (active s.discovery.record).isNone .accountStatusUnknown ++
    flagged (d.orderTypes s).isNone .productSupportUnknown ++
    flagged (s.env = .real && !d.hasTradeCredential) .gatewayUnlockNotObserved

def supported : Supported where
  placement :=
    if authorization s.market s.discovery.record = some false ∨ active s.discovery.record = some false then some false
    else if (d.orderTypes s).isSome ∧ authorization s.market s.discovery.record = some true ∧ active s.discovery.record = some true then
      some true
    else none
  orderTypes := d.orderTypes s
  timeInForce := if s.env = .simulate then ["DAY"] else ["DAY", "GTC"]
  sessions := sessionsOf s.env s.market (d.classify s.code).1 (s.discovery.record.bind AccountRecord.simAccType)
  dealEvents := s.env = .real
  dealQueries := s.env = .real
  orderFees :=
    let firm := s.discovery.record.bind AccountRecord.securityFirm
    if s.env = .simulate ∨ firm = some "FUTUCA" then some false
    else if firm.any (fun f => f ≠ "" ∧ f ≠ "N/A") then some true
    else none

def allowed : Allowed where
  writes := d.modeAllowed s.env && s.resolved.any (d.accountAllowlisted s.env) &&
    executorScope s.env s.market (d.classify s.code).1 && d.clientWrites s.env s.resolved && d.symbolAllowed s.code
  clientWrites := d.clientWrites s.env s.resolved
  tradingMode := d.policy.mode.text
  accountAllowlisted := s.resolved.map (d.accountAllowlisted s.env)
  orderTypes := if s.env = .simulate then some ["NORMAL"] else d.orderTypes s
  timeInForce := if s.env = .simulate then ["DAY"] else ["DAY", "GTC"]
  sessions := if s.env = .simulate then some ["RTH"] else (d.supported s).sessions
  symbolAllowlist := d.policy.limits.symbolAllowlist.mergeSort (fun a b => decide (a ≤ b))
  maxOrderQty := d.policy.limits.maxOrderQty
  maxOrderNotional := d.policy.limits.maxOrderNotional
  maxDailyNotional := d.policy.maxDailyNotional
  requireApproval := d.policy.requireApproval
  reasons := d.policyReasons s

def blocked : List Reason := d.stateReasons s ++ d.policyReasons s

def ready : Ready where
  state := if d.blocked s ≠ [] then "BLOCKED" else if d.doubts s ≠ [] then "UNKNOWN" else "READY"
  blocked := d.blocked s
  unknown := d.doubts s
  journalState := (d.journal s.env).1
  executionHalted := d.halted s.env
  unlockStrategy :=
    if s.env = .simulate then "NOT_REQUIRED" else if d.hasTradeCredential then "JUST_IN_TIME" else "OPERATOR_MANAGED"
  controlsRequired := d.control.policy.controlled
  controlsState := (d.controlsView s.env s.resolved).state
  operatorPaused := (d.controlsView s.env s.resolved).paused

def evidenceErrors : List (String × String) :=
  (match s.discovery with
    | .failed error => [("account", error)]
    | _ => []) ++
    (d.classify s.code).2.toList.map (fun error => ("instrument", error)) ++
    (d.journal s.env).2.toList.map (fun error => ("journal", error)) ++
    (d.controlsView s.env s.resolved).error.toList.map (fun error => ("controls", error))

def subject (code trdEnv accId : String) : Except Exc Subject := do
  let env ← environmentOf trdEnv
  let (normalized, market) ← parseCode code
  let requested ← exactAccountId accId
  let discovery := d.discover env market requested
  return ⟨env, normalized, market, discovery, ← discovery.resolvedId requested⟩

/-- Inspect without approval, unlock, order dispatch or broker acceptance claims. -/
def inspectTradingCapabilities (checkedAt code trdEnv accId : String) : Except Exc Capabilities := do
  let s ← d.subject code trdEnv accId
  return ⟨s.code, (d.classify s.code).1, s.env, s.resolved, checkedAt, d.supported s, d.allowed s, d.ready s, d.evidenceErrors s⟩

end TradeService

/-- The checks that a write has to pass, whatever its terms. -/
inductive Gate
  | mode
  | allowlist
  | symbol
  | scope
  | client
  | journal
  | halt
  | controls

/-- The check that a reason speaks of. The others tell of the account alone. -/
def Reason.gate : Reason → Option Gate
  | .tradingModeDisallowsWrite => some .mode
  | .accountNotAllowlisted => some .allowlist
  | .symbolNotAllowlisted => some .symbol
  | .outsidePaperExecutorScope => some .scope
  | .clientWriteNotAuthorized => some .client
  | .journal _ => some .journal
  | .executionHalted => some .halt
  | .controlsUnavailable | .controls _ | .operatorPaused => some .controls
  | _ => none

/-- A check passes, as the paths of the write make it: `w` is what a paper write finds. -/
def Gate.Passes (d : TradeService) (w : PaperBoundary.World) (operation : String) (env : Environment) (code : String)
    (account : Account) : Gate → Prop
  | .mode => d.accountPolicy.checkWrite operation env.text = .ok ()
  | .allowlist =>
      (env = .real → d.accountPolicy.checkRealAllowlist account = .ok ()) ∧
        (env = .simulate → d.paper.isSome = true ∧ account ∈ d.simulatedAllowlist)
  | .symbol => d.policy.limits.symbolAllowlist ≠ [] → ∀ leg : LegFacts, leg.instrument.code = code →
      d.policy.limits.checkAllowlist operation [leg] = .ok ()
  | .scope => env = .simulate → "US.".toList.isPrefixOf code.toList = true ∧ ∃ i, PaperBoundary.verifiedInstrument w code = .ok i
  | .client => checkAccountAccess d.grants env.text (toString account) true = .ok ()
  | .journal => ∃ sh, d.executor env = some sh ∧ (Executor.ready sh d.journalFault).1 = .ok ()
  | .halt => env = .real → Gateway.checkExecutionHalt operation d.execution = .ok ()
  | .controls =>
      (∃ active reserved, ControlContext.checkDispatchControls d.control (some active) account env = .ok reserved) ∧
        ∀ st db, d.controls = some (st, db) → (TradingControls.checkNewRisk st db d.controlsFault env account).1 = .ok ()

section Gates

variable {d : TradeService} {w : PaperBoundary.World} {operation code market : String} {env : Environment}
  {account requested : Account} {s : Subject} {gate : Gate}

theorem checkWrite_iff : d.accountPolicy.checkWrite operation env.text = .ok () ↔ d.modeAllowed env = true := by
  have hnormal : Text.normalize env.text = env.text := by cases env <;> decide
  have hwritable : d.accountPolicy.writable env.text = d.modeAllowed env := by
    simp only [AccountPolicy.writable, TradeService.modeAllowed, TradeService.accountPolicy]
    cases d.policy.mode <;> cases env <;> decide
  rw [AccountPolicy.checkWrite, hnormal, hwritable]
  cases d.modeAllowed env with
  | true => exact iff_of_true rfl rfl
  | false => exact iff_of_false (fun h => by cases h) Bool.false_ne_true

theorem checkRealAllowlist_iff {policy : AccountPolicy} : policy.checkRealAllowlist account = .ok () ↔ account ∈ policy.realAccIds := by
  rw [AccountPolicy.checkRealAllowlist]
  by_cases hnone : policy.realAccIds = []
  · rw [if_pos hnone, hnone]
    exact iff_of_false (fun h => by cases h) List.not_mem_nil
  · rw [if_neg hnone]
    by_cases hlisted : account ∈ policy.realAccIds
    · rw [if_neg (not_not.mpr hlisted)]
      exact iff_of_true rfl hlisted
    · rw [if_pos hlisted]
      exact iff_of_false (fun h => by cases h) hlisted

theorem passes_allowlist : Gate.Passes d w operation env code account .allowlist ↔ d.accountAllowlisted env account = true := by
  rw [Gate.Passes, checkRealAllowlist_iff]
  cases env with
  | real => simp [TradeService.accountAllowlisted, TradeService.accountPolicy]
  | simulate => simp [TradeService.accountAllowlisted]

theorem checkAllowlist_single {p : TradingPolicy} {leg : LegFacts} :
    p.checkAllowlist operation [leg] = .ok () ↔ leg.instrument.code ∈ p.symbolAllowlist := by
  rw [TradingPolicy.checkAllowlist]
  by_cases hlisted : leg.instrument.code ∈ p.symbolAllowlist
  · simp [hlisted, require, TradingPolicy.checkAllowlist]
    rfl
  · refine iff_of_false (fun h => ?_) hlisted
    simp [hlisted, require] at h
    cases h

theorem passes_symbol : Gate.Passes d w operation env code account .symbol ↔ d.symbolAllowed code = true := by
  simp only [Gate.Passes, checkAllowlist_single, TradeService.symbolAllowed, Bool.or_eq_true, List.isEmpty_iff, List.contains_iff_mem]
  constructor
  · intro h
    rw [or_iff_not_imp_left]
    exact fun hne => h hne ⟨{ code := code }, 1⟩ rfl
  · rintro h hne leg rfl
    exact h.resolve_left hne

theorem passes_client : Gate.Passes d w operation env code account .client ↔ d.clientWrites env (some account) = true := by
  have hallowed : d.clientWrites env (some account) = accountAccessAllowed d.grants env.text (toString account) true := by
    rw [Bool.eq_iff_iff, TradeService.clientWrites, Bool.and_eq_true, Option.all_some]
    refine and_iff_right_of_imp (fun h => ?_)
    rw [accountAccessAllowed_iff (ofText_text env)] at h
    rw [Option.all_eq_true]
    exact fun g hg => decide_eq_true (h g hg).1
  rw [Gate.Passes, access_ok_iff, hallowed]

theorem ready_health {sh : Executor.Shared} {fault : ExecutionStore.Fault} :
    (Executor.ready sh fault).1 = .ok () ↔ Executor.health sh fault = .ok .ready := by
  rw [Executor.ready, Executor.health]
  cases hlate : sh.late with
  | cons late rest =>
      refine iff_of_false (fun h => by cases h) (fun h => ?_)
      cases hread : (ExecutionStore.read sh.store fault (sh.journal.health sh.store.reviewed)).1 with
      | error e =>
          rw [hread] at h
          dsimp only at h
          split at h <;> cases h
      | ok found =>
          rw [hread] at h
          cases h
  | nil =>
      dsimp only
      rw [ExecutionStore.requireReady]
      cases hread : ExecutionStore.read sh.store fault (sh.journal.health sh.store.reviewed) with
      | mk result st =>
          cases result with
          | error e =>
              dsimp only
              split
              · exact iff_of_false (fun h => by cases h) (fun h => by cases h)
              · exact iff_of_false (fun h => by cases h) (fun h => by cases h)
          | ok found =>
              cases found with
              | ready => exact iff_of_true rfl rfl
              | journalBlocked => exact iff_of_false (fun h => by cases h) (fun h => by cases h)
              | reviewPending => exact iff_of_false (fun h => by cases h) (fun h => by cases h)

theorem passes_journal : Gate.Passes d w operation env code account .journal ↔ (d.journal env).1 = "READY" := by
  rw [Gate.Passes, TradeService.journal]
  cases d.executor env with
  | none => exact iff_of_false (fun ⟨_, h, _⟩ => by cases h) (show "DISABLED" ≠ "READY" by decide)
  | some sh =>
      simp only [Option.some.injEq, exists_eq_left', ready_health]
      cases Executor.health sh d.journalFault with
      | error e => exact iff_of_false (fun h => by cases h) (show "UNKNOWN" ≠ "READY" by decide)
      | ok found =>
          cases found with
          | ready => exact iff_of_true rfl rfl
          | journalBlocked => exact iff_of_false (fun h => by cases h) (by decide)
          | reviewPending => exact iff_of_false (fun h => by cases h) (by decide)

theorem passes_halt : Gate.Passes d w operation env code account .halt ↔ d.halted env = false := by
  rw [Gate.Passes, TradeService.halted, Gateway.checkExecutionHalt]
  cases d.execution.halted with
  | false => simp
  | true => cases env <;> simp

theorem pauseState_ready {st : TradingControls.Store} {db : TradingControls.Database} {fault paused : Bool} {scope : TradingControls.Scope}
    (h : (TradingControls.pauseState st db fault scope).1 = .ok paused) : TradeService.controlsHealth st = "READY" := by
  rw [TradingControls.pauseState, TradingControls.transact] at h
  by_cases hopen : (st.closed || st.failed) = true
  · rw [if_pos hopen] at h
    cases h
  · rw [TradeService.controlsHealth, if_neg hopen]

theorem checkNewRisk_iff {st : TradingControls.Store} {db : TradingControls.Database} {fault : Bool} :
    (TradingControls.checkNewRisk st db fault env account).1 = .ok () ↔
      (TradingControls.pauseState st db fault (env, account)).1 = .ok false := by
  rw [TradingControls.checkNewRisk]
  cases TradingControls.pauseState st db fault (env, account) with
  | mk result st' =>
      cases result with
      | error e => exact iff_of_false (fun h => by cases h) (fun h => by cases h)
      | ok paused =>
          cases paused with
          | true => exact iff_of_false (fun h => by cases h) (fun h => by cases h)
          | false => exact iff_of_true rfl rfl

/-- A cancellation that names its account. -/
def plain (account : Account) : ControlContext.Active := ⟨"cancel_order", ⟨"", toString account, none, none, none, none, []⟩, none, none, none, none, none⟩

/-- Without a controls store no execution passes where the policy needs one. -/
theorem dispatchable_iff : (∃ active reserved,
    ControlContext.checkDispatchControls d.control (some active) account env = .ok reserved) ↔
      (d.controls = none → d.control.policy.controlled = false) := by
  cases hcontrolled : d.control.policy.controlled with
  | false => exact iff_of_true ⟨plain account, none, by simp [ControlContext.checkDispatchControls, hcontrolled]⟩ (fun _ => rfl)
  | true =>
      have hconfigured : d.control.tradingControls = d.controls.isSome := rfl
      cases hcontrols : d.controls with
      | none =>
          refine iff_of_false (fun ⟨active, reserved, h⟩ => ?_) (fun h => by cases h rfl)
          rw [hcontrols] at hconfigured
          simp [ControlContext.checkDispatchControls, hcontrolled, hconfigured] at h
      | some controls =>
          rw [hcontrols] at hconfigured
          refine iff_of_true ⟨plain account, some (plain account, (plain account).fixed account env), ?_⟩ (fun h => by cases h)
          have hcancels : (plain account).addsExposure = false := by simp [ControlContext.Active.addsExposure, plain]
          have hnamed : (plain account).parameters.accId = toString account := rfl
          simp [ControlContext.checkDispatchControls, hcontrolled, hconfigured, hcancels, hnamed]

/-- Some reason of the list speaks of the check. -/
def Reported (gate : Gate) (reasons : List Reason) : Prop := ∃ reason ∈ reasons, reason.gate = some gate

@[simp] theorem reported_append {reasons reasons' : List Reason} :
    Reported gate (reasons ++ reasons') ↔ Reported gate reasons ∨ Reported gate reasons' := by
  simp [Reported, or_and_right, exists_or]

@[simp] theorem reported_flagged {yes : Bool} {reason : Reason} :
    Reported gate (flagged yes reason) ↔ yes = true ∧ some gate = reason.gate := by
  rw [eq_comm (a := some gate)]
  cases yes <;> simp [Reported, flagged]

@[simp] theorem not_reported_discovery {discovery : Discovery} : ¬Reported gate discovery.reasons := by
  cases discovery <;> simp [Reported, Discovery.reasons, Reason.gate]

theorem reported_controls (hresolved : s.resolved = some account) :
    Reported gate (d.controlsReasons s) ↔ gate = .controls ∧ ¬Gate.Passes d w operation s.env s.code account .controls := by
  rw [Gate.Passes, dispatchable_iff, TradeService.controlsReasons, TradeService.controlsView, hresolved]
  cases d.controls with
  | none => simp [Reason.gate, and_comm]
  | some controls =>
      obtain ⟨st, db⟩ := controls
      cases hpause : (TradingControls.pauseState st db d.controlsFault (s.env, account)).1 with
      | error e => simp [Reason.gate, hpause, checkNewRisk_iff]
      | ok paused => cases paused <;> simp [Reason.gate, hpause, pauseState_ready hpause, checkNewRisk_iff]

/-- A code with its market before the first point. -/
def Listed (code market : String) : Prop := ∃ symbol, code.toList = market.toList ++ '.' :: symbol ∧ '.' ∉ market.toList

theorem toUpper_point {c : Char} (h : c.toUpper = '.') : c = '.' := by
  rcases Text.toUpper_cases c with hsame | ⟨hge, hle, hupper⟩
  · rw [← hsame, h]
  · rw [h] at hupper
    have : ('.' : Char).toNat = 46 := rfl
    omega

theorem parseCode_listed {given : String} (h : parseCode given = .ok (code, market)) : Listed code market := by
  rw [parseCode] at h
  simp only [check_bind_ok] at h
  obtain ⟨-, -, h⟩ := h
  simp only [pure, Except.pure, Except.ok.injEq, Prod.mk.injEq] at h
  obtain ⟨rfl, rfl⟩ := h
  refine ⟨_, by rw [String.toList_ofList, String.toList_ofList], ?_⟩
  rw [String.toList_ofList, List.mem_map]
  rintro ⟨c, hc, hpoint⟩
  rw [toUpper_point hpoint] at hc
  simpa using List.mem_takeWhile_imp hc

theorem prefix_iff (h : Listed code market) : "US.".toList.isPrefixOf code.toList = true ↔ market = "US" := by
  obtain ⟨symbol, hcode, hpoint⟩ := h
  rw [List.isPrefixOf_iff_prefix, hcode]
  constructor
  · rintro ⟨rest, hrest⟩
    have hus : "US.".toList ++ rest = "US".toList ++ '.' :: rest := rfl
    have hmarket := congrArg (List.takeWhile (· ≠ '.')) (hus.symm.trans hrest)
    rw [takeWhile_listed hpoint, takeWhile_listed (by decide)] at hmarket
    exact String.toList_injective hmarket.symm
  · rintro rfl
    exact ⟨symbol, rfl⟩

/-- The lookup answers with facts about the code that it was asked for. -/
def Answers (d : TradeService) (code : String) : Prop :=
  ∀ find, d.instruments = some find → ∀ facts, find [code] = .ok facts → ∀ fact ∈ facts, fact.code = code

theorem verifiedInstrument_ok (hw : w.instruments = d.instruments) : (∃ i, PaperBoundary.verifiedInstrument w code = .ok i) ↔
    ∃ find fact, d.instruments = some find ∧ find [code] = .ok [fact] ∧ fact.code = code ∧ fact.equity = true := by
  rw [PaperBoundary.verifiedInstrument, hw]
  cases d.instruments with
  | none => simp
  | some find =>
      simp only [Option.some.injEq, exists_and_left, exists_eq_left']
      cases find [code] with
      | error failure => simp [Answer.lift, Except.mapError, bind, Except.bind]
      | ok facts =>
          rw [Checks.ok_bind (lift_ok_iff.mpr rfl)]
          cases facts with
          | nil => simp
          | cons fact rest =>
              cases rest with
              | nil => simp [check_bind_ok, pure, Except.pure]
              | cons _ _ => simp

theorem classify_equity (hanswers : Answers d code) : (d.classify code).1.any (· ∈ equityClassifications) = true ↔
    ∃ find fact, d.instruments = some find ∧ find [code] = .ok [fact] ∧ fact.code = code ∧ fact.equity = true := by
  rw [TradeService.classify]
  cases hfind : d.instruments with
  | none => simp
  | some find =>
      simp only [Option.some.injEq, exists_and_left, exists_eq_left']
      cases hfacts : find [code] with
      | error failure => simp [Answer.lift, Except.mapError]
      | ok facts =>
          have hall := hanswers find hfind facts hfacts
          have hkept : facts.filter (fun fact => fact.code = code) = facts :=
            List.filter_eq_self.mpr (fun fact hfact => decide_eq_true (hall fact hfact))
          simp only [Answer.lift, Except.mapError, hkept]
          cases facts with
          | nil => simp
          | cons fact rest =>
              cases rest with
              | nil => simp [hall fact List.mem_cons_self, InstrumentFacts.equity]
              | cons _ _ => simp

theorem passes_scope (hw : w.instruments = d.instruments) (hanswers : Answers d code) (hcode : Listed code market) :
    Gate.Passes d w operation env code account .scope ↔ executorScope env market (d.classify code).1 = true := by
  rw [Gate.Passes, verifiedInstrument_ok hw, ← classify_equity hanswers, prefix_iff hcode, executorScope]
  cases env <;> simp

theorem subject_ok {given trdEnv accId : String} (h : d.subject given trdEnv accId = .ok s) :
    ∃ requested, exactAccountId accId = .ok requested ∧ Listed s.code s.market ∧
      s.discovery = d.discover s.env s.market requested ∧ s.discovery.resolvedId requested = .ok s.resolved := by
  obtain ⟨env, henv, h⟩ := Checks.bind_ok.mp h
  obtain ⟨⟨code, market⟩, hcode, h⟩ := Checks.bind_ok.mp h
  obtain ⟨requested, hrequested, h⟩ := Checks.bind_ok.mp h
  obtain ⟨resolved, hresolved, h⟩ := Checks.bind_ok.mp h
  cases h
  exact ⟨requested, hrequested, parseCode_listed hcode, rfl, hresolved⟩

/-- A reason of a check is reported exactly where the check refuses. -/
theorem reported_iff (hw : w.instruments = d.instruments) (hanswers : Answers d s.code) (hcode : Listed s.code s.market)
    (hresolved : s.resolved = some account) :
    Reported gate (d.blocked s) ↔ ¬Gate.Passes d w operation s.env s.code account gate := by
  simp only [TradeService.blocked, TradeService.stateReasons, TradeService.policyReasons, reported_append, reported_flagged,
    not_reported_discovery, hresolved, Option.any_some, Reason.gate, Option.some.injEq, false_or]
  have hcontrols : Reported gate (d.controlsReasons s) ↔
      gate = .controls ∧ ¬Gate.Passes d w operation s.env s.code account .controls := reported_controls hresolved
  rw [hcontrols]
  cases gate with
  | mode => simp [Gate.Passes, checkWrite_iff]
  | allowlist => simp [passes_allowlist]
  | symbol => simp [passes_symbol]
  | scope => simp [passes_scope hw hanswers hcode]
  | client => simp [passes_client]
  | journal => simp [passes_journal]
  | halt => simp [passes_halt]
  | controls => simp

theorem exactRow_ok {r : AccountRecord} (h : exactRow r = .ok account) : r.accId = account ∧ account ≠ 0 := by
  rw [exactRow] at h
  split_ifs at h with hzero
  cases h
  exact ⟨rfl, hzero⟩

theorem keepIds_mem {keep : Account → Bool} {rows kept : List AccountRecord} (h : keepIds keep rows = .ok kept) :
    ∀ r ∈ kept, r ∈ rows := by
  induction rows generalizing kept with
  | nil =>
      cases h
      exact fun r hr => hr
  | cons r rows ih =>
      obtain ⟨id, -, h⟩ := Checks.bind_ok.mp h
      obtain ⟨rest, hrest, h⟩ := Checks.bind_ok.mp h
      cases h
      intro r' hr'
      split at hr'
      · rcases List.mem_cons.mp hr' with rfl | hr'
        · exact List.mem_cons_self
        · exact List.mem_cons_of_mem r (ih hrest r' hr')
      · exact List.mem_cons_of_mem r (ih hrest r' hr')

/-- The records are listed by the broker, in this environment. -/
def FromBroker (d : TradeService) (env : Environment) (found : List AccountRecord) : Prop :=
  ∃ rows, d.accounts = .ok rows ∧ ∀ r ∈ found, r ∈ rows ∧ r.trdEnv = env.text

theorem FromBroker.subset {found kept : List AccountRecord} (h : FromBroker d env found) (hkept : ∀ r ∈ kept, r ∈ found) :
    FromBroker d env kept := by
  obtain ⟨rows, hrows, hall⟩ := h
  exact ⟨rows, hrows, fun r hr => hall r (hkept r hr)⟩

theorem accountsIn_broker {found : List AccountRecord} (h : d.accountsIn env = .ok found) : FromBroker d env found := by
  obtain ⟨rows, hrows, rfl⟩ := Checks.map_ok.mp h
  refine ⟨rows, hrows, fun r hr => ?_⟩
  obtain ⟨hmem, hr⟩ := List.mem_filter.mp hr
  simp only [Bool.and_eq_true, decide_eq_true_eq] at hr
  exact ⟨hmem, hr.1⟩

theorem eligibleRecords_broker {found : List AccountRecord} (h : d.eligibleRecords env market = .ok found) : FromBroker d env found := by
  rw [TradeService.eligibleRecords] at h
  cases haccounts : d.accounts with
  | error e =>
      rw [haccounts] at h
      cases h
  | ok rows =>
      rw [haccounts] at h
      cases h
      refine ⟨rows, haccounts, fun r hr => ?_⟩
      obtain ⟨hmem, hr⟩ := List.mem_filter.mp hr
      simp only [eligible, Bool.and_eq_true, decide_eq_true_eq] at hr
      exact ⟨hmem, hr.1.1.1⟩

theorem onList_mem {rows kept : List AccountRecord} (h : d.onList env rows = .ok kept) : ∀ r ∈ kept, r ∈ rows := by
  rw [TradeService.onList] at h
  split_ifs at h
  · exact keepIds_mem h
  · cases h
    exact fun r hr => hr

theorem candidates_broker {found : List AccountRecord} (h : d.candidates env market requested = .ok found) : FromBroker d env found := by
  rw [TradeService.candidates] at h
  by_cases hzero : requested ≠ 0
  · rw [if_pos hzero] at h
    obtain ⟨observed, hobserved, h⟩ := Checks.bind_ok.mp h
    exact (accountsIn_broker hobserved).subset (keepIds_mem h)
  · rw [if_neg hzero] at h
    obtain ⟨chosen, hchosen, h⟩ := Checks.bind_ok.mp h
    obtain ⟨listed, hlisted, h⟩ := Checks.bind_ok.mp h
    obtain ⟨observed, hobserved, h⟩ := Checks.bind_ok.mp h
    cases h
    have hbroker : FromBroker d env observed := by
      rw [TradeService.orObserved] at hobserved
      split_ifs at hobserved
      · exact accountsIn_broker hobserved
      · cases hobserved
        exact (eligibleRecords_broker hchosen).subset (onList_mem hlisted)
    exact hbroker.subset (fun r hr => (List.mem_filter.mp hr).1)

theorem ready_clear (h : (d.ready s).state = "READY") : d.blocked s = [] ∧ d.doubts s = [] := by
  rw [TradeService.ready] at h
  by_cases hblocked : d.blocked s = []
  · by_cases hdoubts : d.doubts s = []
    · exact ⟨hblocked, hdoubts⟩
    · rw [if_neg (not_not.mpr hblocked), if_pos hdoubts] at h
      exact absurd h (show "UNKNOWN" ≠ "READY" by decide)
  · rw [if_pos hblocked] at h
    exact absurd h (show "BLOCKED" ≠ "READY" by decide)

theorem flagged_nil {α : Type} {yes : Bool} {a : α} : flagged yes a = [] ↔ yes = false := by
  cases yes <;> simp [flagged]

/-- What a report that is READY saw of the account. -/
structure Observed (d : TradeService) (s : Subject) (r : AccountRecord) : Prop where
  found : s.discovery = .found r
  authorized : ∃ list, r.permissions = some list ∧ s.market ∈ list
  active : r.accStatus = some "ACTIVE"

theorem ready_observed (h : (d.ready s).state = "READY") : ∃ r, Observed d s r := by
  obtain ⟨hblocked, hdoubts⟩ := ready_clear h
  simp only [TradeService.blocked, TradeService.stateReasons, List.append_eq_nil_iff, flagged_nil, decide_eq_false_iff_not] at hblocked
  simp only [TradeService.doubts, List.append_eq_nil_iff, flagged_nil] at hdoubts
  cases hfound : s.discovery with
  | found r =>
      rw [hfound] at hblocked hdoubts
      refine ⟨r, hfound, ?_, ?_⟩
      · have hsome := hdoubts.1.1.1.2
        have hnot := hblocked.1.1.1.1.1.2
        simp only [authorization, Discovery.record, Option.bind_some, Option.isNone_map] at hsome hnot
        cases hpermissions : r.permissions with
        | none => simp [hpermissions] at hsome
        | some list =>
            rw [hpermissions] at hnot
            refine ⟨list, rfl, ?_⟩
            simpa using hnot
      · have hsome := hdoubts.1.1.2
        have hnot := hblocked.1.1.1.1.2
        simp only [active, Discovery.record, Option.bind_some] at hsome hnot
        cases hstatus : r.accStatus with
        | none => simp [hstatus] at hsome
        | some status =>
            rw [hstatus] at hsome hnot
            simp only [Option.bind_some] at hsome hnot
            split_ifs at hsome hnot with hactive
            · rw [hactive]
            · simp at hnot
            · simp at hsome
  | ambiguous => simp [hfound, Discovery.reasons] at hblocked
  | unavailable => simp [hfound, Discovery.reasons] at hblocked
  | failed error => simp [hfound, Discovery.reasons] at hblocked

/-- The account is the one that a write which names it would be for. -/
def Resolves (d : TradeService) (env : Environment) (account : Account) : Prop :=
  let accounts := d.accounts.map (List.map AccountRecord.row)
  (env = .real → ∀ market, resolveExact d.accountPolicy accounts d.grants env.text market account true = .ok account) ∧
    (env = .simulate → ∀ text, exactAccountId text = .ok account → paperAccount d.accountPolicy accounts d.grants text = .ok account)

/-- Every account of the broker comes with the column of its markets. -/
def Columned (d : TradeService) : Prop := ∀ rows, d.accounts = .ok rows → ∀ r ∈ rows, r.trdmarketAuth ≠ .missing

theorem real_resolves (hne : account ≠ 0) (hlisted : account ∈ d.policy.realAccIds)
    (haccess : checkAccountAccess d.grants env.text (toString account) true = .ok ()) {accounts : Except Exc (List AccountRow)}
    {place : Option String} : resolveExact d.accountPolicy accounts d.grants env.text place account true = .ok account := by
  have hallowed : d.accountPolicy.checkRealAllowlist account = .ok () := checkRealAllowlist_iff.mpr hlisted
  rw [resolveExact, if_pos hne]
  split_ifs
  · rw [hallowed, haccess]
    rfl
  · rw [haccess]
    rfl

theorem paper_resolves {text : String} {rows : List AccountRow} {row : AccountRow} (hne : account ≠ 0)
    (htext : exactAccountId text = .ok account) (hlisted : account ∈ d.simulatedAllowlist)
    (haccess : checkAccountAccess d.grants "SIMULATE" (toString account) true = .ok ()) (hrow : row ∈ rows)
    (heligible : paperEligible d.accountPolicy d.grants row = true) (hid : row.accId = account) :
    paperAccount d.accountPolicy (.ok rows) d.grants text = .ok account := by
  have hmem : account ∈ ((rows.filter (paperEligible d.accountPolicy d.grants)).map (·.accId)).dedup := by
    rw [List.mem_dedup, ← hid]
    exact List.mem_map_of_mem (List.mem_filter.mpr ⟨hrow, heligible⟩)
  have hnot : ¬account ∉ d.accountPolicy.simulateAllowlist := not_not.mpr hlisted
  rw [paperAccount, Checks.ok_bind htext, if_pos hne, if_neg hnot]
  dsimp only
  rw [Checks.ok_bind haccess, getAccounts_none, Checks.ok_bind rfl]
  simp only [if_pos hne, if_pos hmem]
  rfl

/-- What a READY report names is what a write is for. -/
theorem ready_resolves {given trdEnv accId : String} (hs : d.subject given trdEnv accId = .ok s) (hresolved : s.resolved = some account)
    (hready : (d.ready s).state = "READY") (hpasses : ∀ gate, Gate.Passes d w operation s.env s.code account gate)
    (hcolumns : Columned d) : Resolves d s.env account := by
  obtain ⟨r, hobserved⟩ := ready_observed hready
  obtain ⟨requested, -, hcode, hdiscovery, hid⟩ := subject_ok hs
  have hcandidates : d.candidates s.env s.market requested = .ok [r] := by
    rw [hobserved.found, TradeService.discover] at hdiscovery
    split at hdiscovery
    · cases hdiscovery
    · next hfound =>
        cases hdiscovery
        exact hfound
    · cases hdiscovery
    · cases hdiscovery
  obtain ⟨rows, hrows, hall⟩ := candidates_broker hcandidates
  obtain ⟨hmem, hin⟩ := hall r List.mem_cons_self
  rw [hobserved.found, hresolved] at hid
  obtain ⟨id, hexact, hsome⟩ := Checks.map_ok.mp hid
  cases hsome
  obtain ⟨hrow, hne⟩ := exactRow_ok hexact
  have haccess := hpasses .client
  have hlisted := passes_allowlist.mp (hpasses .allowlist)
  have hscope := hpasses .scope
  rw [Gate.Passes] at haccess
  constructor
  · intro henv place
    rw [henv] at hlisted
    exact real_resolves hne (by simpa [TradeService.accountAllowlisted] using hlisted) haccess
  · intro henv text htext
    rw [henv] at hlisted haccess hin
    have hlisted : account ∈ d.simulatedAllowlist := by
      simp only [TradeService.accountAllowlisted, Bool.and_eq_true, List.contains_iff_mem] at hlisted
      exact hlisted.2
    have hmarket : "US" ∈ r.trdmarketAuth.list := by
      obtain ⟨list, hpermissions, hmarket⟩ := hobserved.authorized
      rw [(prefix_iff hcode).mp (hscope henv).1] at hmarket
      cases hcolumn : r.trdmarketAuth with
      | missing => exact absurd hcolumn (hcolumns rows hrows r hmem)
      | null =>
          rw [AccountRecord.permissions, hcolumn] at hpermissions
          cases hpermissions
      | names markets =>
          rw [AccountRecord.permissions, hcolumn] at hpermissions
          cases hpermissions
          exact hmarket
    have heligible : paperEligible d.accountPolicy d.grants r.row = true := by
      have hmay : accountAccessAllowed d.grants "SIMULATE" (toString account) true = true := access_ok_iff.mp haccess
      have henvironment : r.trdEnv = "SIMULATE" := hin
      simp only [paperEligible, AccountRecord.row, TradeService.accountPolicy, henvironment, hrow, hmay,
        List.contains_iff_mem.mpr hlisted, List.contains_iff_mem.mpr hmarket, decide_true, Bool.and_true]
    rw [hrows]
    exact paper_resolves hne htext hlisted haccess (List.mem_map_of_mem hmem) heligible hrow

/-- The checks of the policy, which no state of the process changes. -/
def policyGates : List Gate := [.mode, .allowlist, .symbol, .scope, .client]

theorem writes_iff (hw : w.instruments = d.instruments) (hanswers : Answers d s.code) (hcode : Listed s.code s.market)
    (hresolved : s.resolved = some account) :
    (d.allowed s).writes = true ↔ ∀ gate ∈ policyGates, Gate.Passes d w operation s.env s.code account gate := by
  have hscope : Gate.Passes d w operation s.env s.code account .scope ↔
      executorScope s.env s.market (d.classify s.code).1 = true := passes_scope hw hanswers hcode
  have hmode : Gate.Passes d w operation s.env s.code account .mode ↔ d.modeAllowed s.env = true := checkWrite_iff
  simp only [policyGates, List.forall_mem_cons, List.not_mem_nil, false_implies, implies_true, and_true, hmode, passes_allowlist,
    passes_symbol, hscope, passes_client, TradeService.allowed, Bool.and_eq_true, hresolved, Option.any_some]
  tauto

end Gates

/-- A paper deployment with one account, whose journal is reviewed. -/
def paperService : TradeService where
  policy := ⟨.simulate, {}, [], [], false⟩
  paper := some ⟨ExecutionStore.Journal.initial .simulate, ⟨"E", true, none⟩, [], []⟩
  simulatedAllowlist := [7]
  real := none
  journalFault := .none
  controls := none
  controlsFault := false
  execution := Gateway.Execution.armed
  hasTradeCredential := false
  grants := none
  accounts := .ok [⟨7, "SIMULATE", .missing, .names ["US"], some "ACTIVE", some "STOCK", none⟩]
  instruments := WriteBoundary.paperWorld.instruments

theorem paperService_inspected : (paperService.inspectTradingCapabilities "12:00" " us.A" "simulate" "7").toOption.map
    (fun r => (r.accId, r.trdEnv, r.ready.state)) = some (some 7, .simulate, "READY") := by decide +kernel

theorem paperService_columned : Columned paperService := by
  intro rows hrows r hr
  cases hrows
  rw [List.mem_singleton.mp hr]
  exact fun h => by cases h

theorem paperService_answers (code : String) : Answers paperService code := by
  intro find hfind facts hfacts fact hfact
  cases hfind
  cases hfacts
  rw [List.mem_singleton.mp hfact]

end TradingCapabilities

end MoomooMcp
