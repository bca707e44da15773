import MoomooMcp.Accounts
import MoomooMcp.Checks
import MoomooMcp.TradingPolicy

namespace MoomooMcp

open Intent OrderRules Accounts ClientAuthorization

namespace Settings

/-- What the process asks of its host: the tables of characters, the directories behind
a path, from the root on, and the firms of the SDK. -/
structure Host where
  isDigit : Char → Bool
  decimal : Char → Option ℕ
  isPrintable : Char → Bool
  resolve : String → List String
  securityFirms : List String

abbrev Environ := String → Option String

def trim (text : String) : String := String.ofList (Text.strip text.toList)

theorem trim_trim (text : String) : trim (trim text) = trim text := by
  rw [trim, trim, String.toList_ofList, Text.strip_strip]

/-- `(environ.get(name) or "").strip()`. -/
def Environ.text (env : Environ) (name : String) : String := trim ((env name).getD "")

/-- `(environ.get(name) or default).strip()`. -/
def Environ.textOr (env : Environ) (name default : String) : String := trim (((env name).filter (· ≠ "")).getD default)

/-- `environ.get(name)`, where it is more than space. -/
def Environ.given (env : Environ) (name : String) : Option String := (env name).filter (fun value => trim value ≠ "")

def items (raw : String) : List String := (raw.toList.splitOn ',').map (fun item => trim (String.ofList item))

/-- `float(text)`. -/
def float (text : String) : Option Numeral :=
  (Text.toNumeral text).map (fun n =>
    match n with
    | .finite d => d.toFloat
    | .nonFinite => .nonFinite)

def tooManyDigits : Exc :=
  valueError "Exceeds the limit (4300 digits) for integer string conversion"

/-- `int(text)`, of a text of ASCII digits. -/
def digits (text : String) : Except Exc ℕ :=
  if 4300 < text.length then .error tooManyDigits else .ok (Text.toNat text)

/-- `int(text)`, of a text for which `isdigit` holds. Some of these digits have no decimal value. -/
def Host.int (host : Host) (text : String) : Except Exc ℕ :=
  if 4300 < text.length then .error tooManyDigits
  else
    match text.toList.mapM host.decimal with
    | some ds => .ok (ds.foldl (fun n d => 10 * n + d) 0)
    | none => .error (valueError ("invalid literal for int() with base 10: '" ++ text ++ "'"))

def Host.isdigit (host : Host) (text : String) : Bool := !text.isEmpty && text.toList.all host.isDigit

/-- A credential that a header can carry unchanged. -/
def Host.credential (host : Host) (token : String) : Bool :=
  token.toList.all (fun c => decide (c.toNat < 128) && host.isPrintable c && !Text.isSpace c)

/-- A switch of the environment: `0` or `1`. -/
def flag (name text : String) : Except Exc Bool := do
  check (["0", "1"].contains text) (name ++ " must be 0 or 1")
  return text == "1"

end Settings

namespace TradingPolicy

open Settings

def modes : List TradingMode := [.readOnly, .simulate, .real]

def parseMode (raw : Option String) : Except Exc TradingMode :=
  match raw with
  | none => .ok .readOnly
  | some value =>
      match modes.find? (fun mode => mode.text == Text.normalize value) with
      | some mode => .ok mode
      | none => .error (valueError ("MOOMOO_TRADING_MODE is set to '" ++ value ++ "', which is not a trading mode. " ++
          "Valid values: " ++ ", ".intercalate (modes.map TradingMode.text) ++ "."))

def quantityVariable : String := "MOOMOO_MAX_ORDER_QTY"

def parseQuantity (raw : Option String) : Except Exc (Option Cap) :=
  match raw with
  | none => .ok none
  | some value =>
      match float (trim value) with
      | some n => (requirePositiveFinite quantityVariable "limit" n).map some
      | none => .error (valueError (quantityVariable ++ " must be a positive number, got '" ++ value ++ "'."))

/-- The caps of `entries`, after those that are parsed. -/
def parseEntries (variableName : String) (caps : List (String × Cap)) : List String → Except Exc (List (String × Cap))
  | [] => .ok caps
  | entry :: entries => do
      let currency := Text.normalize (String.ofList (entry.toList.takeWhile (· ≠ ':')))
      let amount := trim (String.ofList ((entry.toList.dropWhile (· ≠ ':')).drop 1))
      check (entry.toList.contains ':')
        (variableName ++ ": entry '" ++ entry ++ "' has no currency. Use CURRENCY:AMOUNT, for example USD:25000.")
      check (currency.length = 3 ∧ currency.toList.all Char.isAlpha = true)
        (variableName ++ ": '" ++ currency ++ "' is not a three-letter currency code.")
      check (caps.lookup currency).isNone
        (variableName ++ ": " ++ currency ++ " appears more than once. A currency can have only one cap.")
      match float amount with
      | none => .error (valueError (variableName ++ ": '" ++ amount ++ "' is not a number for " ++ currency ++ "."))
      | some n =>
          let cap ← requirePositiveFinite variableName (currency ++ " cap") n
          parseEntries variableName (caps ++ [(currency, cap)]) entries

/-- Parse `CURRENCY:AMOUNT[,CURRENCY:AMOUNT...]`. -/
def parseNotionalCaps (raw variableName : String) : Except Exc (List (String × Cap)) := do
  let caps ← parseEntries variableName [] ((items raw).filter (· ≠ ""))
  check (!caps.isEmpty) (variableName ++ " is set but holds no cap. Use CURRENCY:AMOUNT, for example USD:25000, or unset it.")
  return caps

def accountsVariable : String := "MOOMOO_REAL_ACC_IDS"

/-- Parse a comma-separated list of decimal REAL account identifiers. -/
def parseRealAccIds (host : Host) (raw : String) : Except Exc (List Account) := do
  let ids ← ((items raw).filter (· ≠ "")).mapM (fun entry => do
    check (host.isdigit entry) (accountsVariable ++ ": '" ++ entry ++ "' is not a decimal account identifier. Get the " ++
      "identifiers from get_accounts.")
    host.int entry)
  check (!ids.isEmpty) (accountsVariable ++ " is set but names no account. REAL mode requires the accounts REAL writes " ++
    "may target.")
  return ids

/-- Read in REAL mode alone: elsewhere the list would state an intent that cannot be acted on. -/
def loadRealAccIds (host : Host) (env : Environ) (mode : TradingMode) : Except Exc (List Account) :=
  if mode = .real then do
    check (env.text accountsVariable ≠ "") (accountsVariable ++ " is required when MOOMOO_TRADING_MODE is REAL. It names " ++
      "the accounts REAL writes may target, as a comma-separated list of the identifiers get_accounts reports.")
    parseRealAccIds host (env.text accountsVariable)
  else .ok []

def parseSymbols (raw : Option String) : Except Exc (List String) :=
  match raw with
  | none => .ok []
  | some value => do
      check ((items value).all (· ≠ "")) "MOOMOO_SYMBOL_ALLOWLIST must not be empty"
      return items value

def dailyVariable : String := "MOOMOO_MAX_DAILY_NOTIONAL_BY_CURRENCY"

/-- The caps of one order. Only `NONE` leaves an order without any. -/
def loadNotionalCaps (env : Environ) : Except Exc (List (String × Cap)) :=
  let raw := env.textOr notionalVariable "USD:500"
  let configured := if raw = "" then "USD:500" else raw
  if Text.normalize configured = "NONE" then .ok [] else parseNotionalCaps configured notionalVariable

def loadDailyCaps (env : Environ) : Except Exc (List (String × Cap)) :=
  match env dailyVariable with
  | none => .ok []
  | some raw => parseNotionalCaps raw dailyVariable

/-- The trading policy of a deployment, of which `limits` judges the single order. -/
structure Deployment where
  mode : TradingMode
  limits : TradingPolicy
  realAccIds : List Account
  maxDailyNotional : List (String × Cap)
  requireApproval : Bool

def finiteCaps (caps : List (String × Cap)) : List (String × Numeral) := caps.map (fun cap => (cap.1, .finite cap.2.val))

/-- `TradingPolicy.from_env`. -/
def fromEnv (host : Host) (env : Environ) : Except Exc Deployment := do
  let mode ← parseMode (env.given "MOOMOO_TRADING_MODE")
  let quantity ← parseQuantity (env.given quantityVariable)
  let caps ← loadNotionalCaps env
  let realAccIds ← loadRealAccIds host env mode
  let symbols ← parseSymbols (env "MOOMOO_SYMBOL_ALLOWLIST")
  let daily ← loadDailyCaps env
  let requireApproval ← flag "MOOMOO_REQUIRE_TRADE_APPROVAL" (trim ((env "MOOMOO_REQUIRE_TRADE_APPROVAL").getD "0"))
  let limits ← postInit (quantity.map (fun cap => .finite cap.val)) (finiteCaps caps) symbols
  return ⟨mode, limits, realAccIds, daily, requireApproval⟩

end TradingPolicy

open TradingPolicy

/-- The validated configuration of one server process. -/
structure Settings where
  opendHost : String
  opendPort : ℕ
  policy : Deployment
  securityFirm : Option String
  tradingMarket : String
  tradePassword : Option String
  tradePasswordMd5 : Option String
  transport : String
  authToken : String
  allowUnauthenticatedHttp : Bool
  simulatedAccountAllowlist : List {id : Account // 0 < id}
  journalPath : Option String
  createJournal : Bool
  journalLockWaitMs : ℕ
  allowChatgptTunnelHost : Bool
  realJournalPath : Option String
  createRealJournal : Bool
  controlsPath : Option String
  createControls : Bool
  operatorAuthToken : String
  operatorId : String
  reportingCurrency : Option String
  observeExecution : Bool
  restrictedAuthToken : String
  restrictedGrants : Grants

namespace Settings

def hasTradeCredential (s : Settings) : Bool := s.tradePassword.isSome || s.tradePasswordMd5.isSome

/-- Whether this deployment asserts a lock on connect and reconnect. -/
def locksGatewayAtRest (s : Settings) : Bool :=
  s.policy.mode = .readOnly || (s.policy.mode = .real && s.hasTradeCredential)

/-- What decides which accounts a mutation may target. -/
def accountPolicy (s : Settings) : AccountPolicy :=
  ⟨s.policy.mode, s.policy.realAccIds, s.simulatedAccountAllowlist.map Subtype.val⟩

/-- `(env.get(name) or "").strip() or None`. -/
def Environ.option (env : Environ) (name : String) : Option String :=
  if env.text name = "" then none else some (env.text name)

def loadPort (host : Host) (env : Environ) : Except Exc ℕ :=
  let raw := env.text "MOOMOO_OPEND_PORT"
  if raw = "" then .ok 11111
  else do
    check (host.isdigit raw) ("MOOMOO_OPEND_PORT must be a port number, got '" ++ raw ++ "'.")
    let port ← host.int raw
    check (1 ≤ port ∧ port ≤ 65535) ("MOOMOO_OPEND_PORT must be between 1 and 65535, got " ++ toString port ++ ".")
    return port

/-- An upper-cased choice of the environment, if one is made. -/
def loadChoice (env : Environ) (name expected : String) (valid : List String) : Except Exc (Option String) :=
  match env.option name with
  | none => .ok none
  | some raw => do
      check (valid.contains (Text.normalize raw)) (name ++ " is set to '" ++ raw ++ "'" ++ expected ++ " Valid values: " ++
        ", ".intercalate valid ++ ".")
      return some (Text.normalize raw)

def loadSecurityFirm (host : Host) (env : Environ) : Except Exc (Option String) :=
  loadChoice env "MOOMOO_SECURITY_FIRM" ", which is not a securities firm this SDK defines." host.securityFirms

def tradingMarkets : List String := ["NONE", "HK", "US", "CN", "HKCC", "SG", "AU", "JP", "MY", "CA"]

def loadTradingMarket (env : Environ) : Except Exc String := do
  return (← loadChoice env "MOOMOO_TRADING_MARKET" "." tradingMarkets).getD "NONE"

def reportingCurrencies : List String := ["HKD", "USD", "CNH", "JPY", "SGD", "AUD", "CAD", "MYR"]

def loadReportingCurrency (env : Environ) : Except Exc (Option String) :=
  loadChoice env "MOOMOO_REPORTING_CURRENCY" "." reportingCurrencies

def loadTransport (env : Environ) : Except Exc String := do
  let raw := String.ofList ((env.textOr "MCP_TRANSPORT" "streamable-http").toList.map Char.toLower)
  check (raw == "streamable-http") ("MCP_TRANSPORT is set to '" ++ raw ++ "'. Valid values: streamable-http.")
  return raw

/-- Opt in to one Docker service Host. -/
def loadChatgptTunnelHost (env : Environ) : Except Exc Bool := do
  let value := env.text "MCP_ALLOW_CHATGPT_TUNNEL_HOST"
  check (["", "0", "1"].contains value) "MCP_ALLOW_CHATGPT_TUNNEL_HOST must be 0 or 1"
  return value == "1"

/-- One positive account of a list. -/
def positiveId (refused item : String) : Except Exc {id : Account // 0 < id} := do
  check (Text.isDecimal item) refused
  let id ← digits item
  if h : 0 < id then return ⟨id, h⟩ else .error (valueError refused)

def simulatedVariable : String := "MOOMOO_SIMULATED_ACC_IDS"

def parseAllowlist (raw : String) : Except Exc (List {id : Account // 0 < id}) :=
  if raw = "" then .ok []
  else (items raw).mapM (positiveId (simulatedVariable ++ " must list positive decimal account IDs"))

def writable (mode : TradingMode) : Bool := mode ≠ .readOnly

/-- The configuration of paper execution. -/
structure Paper where
  allowlist : List {id : Account // 0 < id} := []
  journalPath : Option String := none
  createJournal : Bool := false
  lockWaitMs : ℕ := 5000

def waitVariable : String := "MOOMOO_JOURNAL_LOCK_WAIT_MS"

def loadLockWait (env : Environ) : Except Exc ℕ := do
  let raw := env.textOr waitVariable "5000"
  check (Text.isDecimal raw) (waitVariable ++ " must be between 1 and 60000")
  let wait ← digits raw
  check (1 ≤ wait ∧ wait ≤ 60000) (waitVariable ++ " must be between 1 and 60000")
  return wait

/-- What paper execution needs. A REAL deployment may leave all of it out. -/
def Paper.complete (p : Paper) (env : Environ) : Except Exc Unit := do
  check (!p.allowlist.isEmpty) (simulatedVariable ++ " is required for paper execution")
  check p.journalPath.isSome "MOOMOO_JOURNAL_PATH is required for paper execution"
  let market ← loadTradingMarket env
  check (["US", "NONE"].contains market) "MOOMOO_TRADING_MARKET must be US or NONE for paper execution"

def Paper.begun (p : Paper) : Bool := p.journalPath.isSome || !p.allowlist.isEmpty || p.createJournal

def loadPaper (env : Environ) (mode : TradingMode) (observe : Bool) : Except Exc Paper :=
  if writable mode || observe then do
    let allowlist ← parseAllowlist (env.text simulatedVariable)
    let creation ← flag "MOOMOO_CREATE_JOURNAL" (env.textOr "MOOMOO_CREATE_JOURNAL" "0")
    let lockWaitMs ← loadLockWait env
    let p : Paper := ⟨allowlist, env.option "MOOMOO_JOURNAL_PATH", creation && writable mode, lockWaitMs⟩
    if writable mode && (mode == .simulate || p.begun) then p.complete env
    return p
  else .ok {}

/-- A storage file, and whether it may be created. -/
structure Storage where
  path : Option String := none
  create : Bool := false

/-- The directory that `Path(path).resolve().parent` is. -/
def Host.directory (host : Host) (path : String) : List String := (host.resolve path).dropLast

def loadReal (host : Host) (env : Environ) (mode : TradingMode) (observe : Bool) (paper : Paper) : Except Exc Storage :=
  if mode == .real || observe then do
    let path := env.option "MOOMOO_REAL_JOURNAL_PATH"
    check (path.isSome || mode != .real) "MOOMOO_REAL_JOURNAL_PATH is required for durable REAL execution"
    let creation ← flag "MOOMOO_CREATE_REAL_JOURNAL" (env.textOr "MOOMOO_CREATE_REAL_JOURNAL" "0")
    check (paper.journalPath.all (fun p => path.all (fun q => host.directory p ≠ host.directory q)))
      "MOOMOO_REAL_JOURNAL_PATH and MOOMOO_JOURNAL_PATH must use distinct directories"
    return ⟨path, creation && mode == .real⟩
  else .ok {}

def checkOperator (host : Host) (authToken operatorToken operatorId : String) : Except Exc Unit :=
  if operatorToken = "" then .ok ()
  else do
    check (authToken ≠ "") "MCP_AUTH_TOKEN is required with an operator channel"
    check (operatorToken ≠ authToken) "MOOMOO_OPERATOR_AUTH_TOKEN must differ from MCP_AUTH_TOKEN"
    check (host.credential operatorToken) "MOOMOO_OPERATOR_AUTH_TOKEN is invalid"
    check (operatorId ≠ "" ∧ operatorId.length ≤ 128 ∧ operatorId.toList.all host.isPrintable = true)
      "MOOMOO_OPERATOR_ID is required and bounded"

def loadControls (host : Host) (env : Environ) (policy : Deployment) (observe : Bool) (operatorToken : String)
    (journals : List String) : Except Exc Storage :=
  if writable policy.mode || observe || operatorToken ≠ "" then do
    let path := env.option "MOOMOO_TRADING_CONTROLS_PATH"
    let creation ← flag "MOOMOO_CREATE_TRADING_CONTROLS" (env.textOr "MOOMOO_CREATE_TRADING_CONTROLS" "0")
    check (!(policy.requireApproval || !policy.maxDailyNotional.isEmpty || operatorToken ≠ "") || path.isSome)
      "MOOMOO_TRADING_CONTROLS_PATH is required"
    check (!(writable policy.mode && policy.requireApproval) || operatorToken ≠ "")
      "MOOMOO_OPERATOR_AUTH_TOKEN is required for approvals"
    check (path.all (fun p => journals.all (fun journal => host.resolve p ≠ host.resolve journal)))
      "Trading controls must use distinct storage"
    return ⟨path, creation && writable policy.mode⟩
  else .ok {}

def permissionNames : List (String × Permission) :=
  [("market_read", .marketRead), ("real_read", .realRead), ("simulate_read", .simulateRead), ("real_write", .realWrite),
    ("simulate_write", .simulateWrite), ("gateway_control", .gatewayControl)]

def defaultRestrictedPermissions : List Permission := [.marketRead, .realRead, .simulateRead, .simulateWrite]

def loadPermissions (raw : Option String) : Except Exc (List Permission) :=
  match raw with
  | none => .ok defaultRestrictedPermissions
  | some value => (items value).mapM (fun item =>
      match permissionNames.lookup item with
      | some permission => .ok permission
      | none => .error (valueError "MCP_RESTRICTED_PERMISSIONS: Client grants contain an unknown permission"))

def loadScope (env : Environ) (name : String) : Except Exc (Option (List {id : Account // 0 < id})) :=
  match env name with
  | none => .ok none
  | some raw => ((items raw).mapM (positiveId (name ++ " must list positive account IDs"))).map some

def ids (scope : Option (List {id : Account // 0 < id})) : Option (List Account) := scope.map (List.map Subtype.val)

theorem ids_positive (scope : Option (List {id : Account // 0 < id})) : positiveIds (ids scope) := by
  intro list hlist account haccount
  obtain ⟨positives, -, rfl⟩ := Option.map_eq_some_iff.mp hlist
  obtain ⟨id, -, rfl⟩ := List.mem_map.mp haccount
  exact id.property

def loadRestricted (host : Host) (env : Environ) (authToken operatorToken token : String) : Except Exc Grants :=
  if token = "" then .ok none
  else do
    check (authToken ≠ "" && token ≠ authToken && token ≠ operatorToken && host.credential token)
      "MCP_RESTRICTED_AUTH_TOKEN must be valid and distinct from other tokens"
    let real ← loadScope env "MCP_RESTRICTED_REAL_ACC_IDS"
    let simulate ← loadScope env "MCP_RESTRICTED_SIMULATE_ACC_IDS"
    let permissions ← loadPermissions (env "MCP_RESTRICTED_PERMISSIONS")
    return some ⟨permissions, ids real, ids simulate, ids_positive real, ids_positive simulate⟩

/-- `load_settings`: read and validate the configuration of this process. Nothing falls
back to a default in place of a value that was set and rejected. -/
def load (host : Host) (env : Environ) : Except Exc Settings := do
  let policy ← fromEnv host env
  let password := env.option "MOOMOO_TRADE_PASSWORD"
  let transport ← loadTransport env
  let authToken := env.text "MCP_AUTH_TOKEN"
  let observe ← flag "MOOMOO_OBSERVE_EXECUTION" (env.textOr "MOOMOO_OBSERVE_EXECUTION" "0")
  let paper ← loadPaper env policy.mode observe
  let real ← loadReal host env policy.mode observe paper
  let operatorToken := env.text "MOOMOO_OPERATOR_AUTH_TOKEN"
  checkOperator host authToken operatorToken (env.text "MOOMOO_OPERATOR_ID")
  let controls ← loadControls host env policy observe operatorToken (paper.journalPath.toList ++ real.path.toList)
  let restrictedToken := env.text "MCP_RESTRICTED_AUTH_TOKEN"
  let grants ← loadRestricted host env authToken operatorToken restrictedToken
  let opendPort ← loadPort host env
  let securityFirm ← loadSecurityFirm host env
  let tradingMarket ← loadTradingMarket env
  let tunnel ← loadChatgptTunnelHost env
  let currency ← loadReportingCurrency env
  return {
    opendHost := (env.option "MOOMOO_OPEND_HOST").getD "127.0.0.1"
    opendPort := opendPort
    policy := policy
    securityFirm := securityFirm
    tradingMarket := tradingMarket
    tradePassword := password
    -- the plain-text password takes precedence over the hash
    tradePasswordMd5 := if password.isSome then none else env.option "MOOMOO_TRADE_PASSWORD_MD5"
    transport := transport
    authToken := authToken
    allowUnauthenticatedHttp := env.text "MCP_ALLOW_UNAUTHENTICATED_HTTP" == "1"
    simulatedAccountAllowlist := paper.allowlist
    journalPath := paper.journalPath
    createJournal := paper.createJournal
    journalLockWaitMs := paper.lockWaitMs
    allowChatgptTunnelHost := tunnel
    realJournalPath := real.path
    createRealJournal := real.create
    controlsPath := controls.path
    createControls := controls.create
    operatorAuthToken := operatorToken
    operatorId := env.text "MOOMOO_OPERATOR_ID"
    reportingCurrency := currency
    observeExecution := observe
    restrictedAuthToken := restrictedToken
    restrictedGrants := grants }

/-- Refuse to serve an HTTP transport that nothing authenticates. -/
def checkTransportAuthentication (s : Settings) : Except Exc Unit :=
  if s.authToken ≠ "" then .ok ()
  else if s.allowUnauthenticatedHttp = true ∧ s.policy.mode = .readOnly then .ok ()
  else
    let detail :=
      if s.allowUnauthenticatedHttp then
        "MCP_ALLOW_UNAUTHENTICATED_HTTP=1 is honoured only in READ_ONLY mode, and this server is configured for " ++
          s.policy.mode.text ++ "."
      else "Set MCP_AUTH_TOKEN, or set MCP_ALLOW_UNAUTHENTICATED_HTTP=1 in READ_ONLY mode if an unauthenticated endpoint " ++
        "is genuinely what you want."
    .error (valueError ("MCP_AUTH_TOKEN is required for the " ++ s.transport ++ " transport. " ++ detail))

/-- The configuration that `main` goes on to serve with. -/
def start (host : Host) (env : Environ) : Except Exc Settings := do
  let s ← load host env
  checkTransportAuthentication s
  return s

variable {host : Host} {env : Environ} {mode : TradingMode} {observe : Bool} {name text : String}

theorem flag_ok {b : Bool} (h : flag name text = .ok b) : b = true ↔ text = "1" := by
  obtain ⟨-, h⟩ := check_bind_ok.mp h
  cases h
  exact beq_iff_eq

theorem parseMode_ok {raw : Option String} (h : parseMode raw = .ok mode) :
    mode = .readOnly ∨ ∃ value, raw = some value ∧ Text.normalize value = mode.text := by
  cases raw with
  | none =>
      cases h
      exact .inl rfl
  | some value =>
      rw [parseMode] at h
      split at h
      · next found hfound =>
          cases h
          have htext := List.find?_some hfound
          exact .inr ⟨value, rfl, (beq_iff_eq.mp htext).symm⟩
      · cases h

theorem loadRealAccIds_ok {ids : List Account} (h : loadRealAccIds host env mode = .ok ids) : mode = .real ↔ ids ≠ [] := by
  rw [loadRealAccIds] at h
  split_ifs at h with hmode
  · obtain ⟨-, h⟩ := check_bind_ok.mp h
    obtain ⟨found, -, h⟩ := Checks.bind_ok.mp h
    obtain ⟨hne, h⟩ := check_bind_ok.mp h
    cases h
    exact iff_of_true hmode (by simpa using hne)
  · cases h
    exact iff_of_false hmode (not_not.mpr rfl)

theorem parseNotionalCaps_ok {raw : String} {caps : List (String × Cap)} (h : parseNotionalCaps raw name = .ok caps) : caps ≠ [] := by
  obtain ⟨found, -, h⟩ := Checks.bind_ok.mp h
  obtain ⟨hne, h⟩ := check_bind_ok.mp h
  cases h
  simpa using hne

theorem loadNotionalCaps_ok {caps : List (String × Cap)} (h : loadNotionalCaps env = .ok caps) :
    caps ≠ [] ∨ Text.normalize (env.textOr notionalVariable "USD:500") = "NONE" := by
  simp only [loadNotionalCaps] at h
  split_ifs at h with hnone hempty hempty
  · rw [Text.normalize] at hempty
    exact absurd hempty (by decide +kernel)
  · exact .inl (parseNotionalCaps_ok h)
  · exact .inr hempty
  · exact .inl (parseNotionalCaps_ok h)

theorem validateCaps_ok {caps : List (String × Numeral)} {validated found : List (String × Cap)}
    (h : validateCaps validated caps = .ok found) : validated.length + caps.length = found.length := by
  induction caps generalizing validated with
  | nil =>
      cases h
      rfl
  | cons cap caps ih =>
      obtain ⟨-, h⟩ := check_bind_ok.mp h
      obtain ⟨-, h⟩ := check_bind_ok.mp h
      obtain ⟨number, -, h⟩ := Checks.bind_ok.mp h
      rw [← ih h]
      simp only [List.length_append, List.length_cons, List.length_nil]
      omega

/-- A policy that is read from an environment. -/
structure Stated (env : Environ) (d : Deployment) : Prop where
  intended : d.mode = .readOnly ∨
    ∃ value, env "MOOMOO_TRADING_MODE" = some value ∧ Text.normalize value = d.mode.text
  real : d.mode = .real ↔ d.realAccIds ≠ []
  capped : d.limits.maxOrderNotional ≠ [] ∨ Text.normalize (env.textOr notionalVariable "USD:500") = "NONE"

theorem fromEnv_stated {d : Deployment} (h : fromEnv host env = .ok d) : Stated env d := by
  obtain ⟨mode, hmode, h⟩ := Checks.bind_ok.mp h
  obtain ⟨quantity, -, h⟩ := Checks.bind_ok.mp h
  obtain ⟨caps, hcaps, h⟩ := Checks.bind_ok.mp h
  obtain ⟨ids, hids, h⟩ := Checks.bind_ok.mp h
  obtain ⟨symbols, -, h⟩ := Checks.bind_ok.mp h
  obtain ⟨daily, -, h⟩ := Checks.bind_ok.mp h
  obtain ⟨approval, -, h⟩ := Checks.bind_ok.mp h
  obtain ⟨limits, hlimits, h⟩ := Checks.bind_ok.mp h
  cases h
  refine ⟨(parseMode_ok hmode).imp_right ?_, loadRealAccIds_ok hids, (loadNotionalCaps_ok hcaps).imp_left ?_⟩
  · rintro ⟨value, hvalue, htext⟩
    exact ⟨value, (Option.filter_eq_some_iff.mp hvalue).1, htext⟩
  · intro hne
    obtain ⟨-, -, hlimits⟩ := Checks.bind_ok.mp hlimits
    obtain ⟨validated, hvalidated, hlimits⟩ := Checks.bind_ok.mp hlimits
    obtain ⟨-, hlimits⟩ := check_bind_ok.mp hlimits
    cases hlimits
    have hlength := validateCaps_ok hvalidated
    rw [finiteCaps, List.length_map, List.length_nil, Nat.zero_add] at hlength
    intro hnil
    have hnone : validated = [] := hnil
    exact hne (List.length_eq_zero_iff.mp (by rw [hlength, hnone, List.length_nil]))

/-- Paper execution as it is configured. -/
structure PaperReady (env : Environ) (mode : TradingMode) (p : Paper) : Prop where
  creates : p.createJournal = true → mode ≠ .readOnly
  waits : 1 ≤ p.lockWaitMs ∧ p.lockWaitMs ≤ 60000
  complete : mode ≠ .readOnly → mode = .simulate ∨ p.begun = true →
    p.allowlist ≠ [] ∧ p.journalPath.isSome = true ∧ ∃ market, loadTradingMarket env = .ok market ∧ market ∈ ["US", "NONE"]

theorem writable_iff : writable mode = true ↔ mode ≠ .readOnly := decide_eq_true_iff

theorem complete_ok {p : Paper} (h : p.complete env = .ok ()) :
    p.allowlist ≠ [] ∧ p.journalPath.isSome = true ∧ ∃ market, loadTradingMarket env = .ok market ∧ market ∈ ["US", "NONE"] := by
  obtain ⟨hne, h⟩ := check_bind_ok.mp h
  obtain ⟨hpath, h⟩ := check_bind_ok.mp h
  obtain ⟨market, hmarket, h⟩ := Checks.bind_ok.mp h
  exact ⟨by simpa using hne, hpath, market, hmarket, List.contains_iff_mem.mp (check_ok.mp h)⟩

theorem loadLockWait_ok {wait : ℕ} (h : loadLockWait env = .ok wait) : 1 ≤ wait ∧ wait ≤ 60000 := by
  obtain ⟨-, h⟩ := check_bind_ok.mp h
  obtain ⟨found, -, h⟩ := Checks.bind_ok.mp h
  obtain ⟨hbounds, h⟩ := check_bind_ok.mp h
  cases h
  exact of_decide_eq_true hbounds

theorem loadPaper_ready {p : Paper} (h : loadPaper env mode observe = .ok p) : PaperReady env mode p := by
  rw [loadPaper] at h
  split_ifs at h with hasked
  · obtain ⟨allowlist, -, h⟩ := Checks.bind_ok.mp h
    obtain ⟨creation, -, h⟩ := Checks.bind_ok.mp h
    obtain ⟨wait, hwait, h⟩ := Checks.bind_ok.mp h
    have hcreates : (creation && writable mode) = true → mode ≠ .readOnly :=
      fun hc => writable_iff.mp (Bool.and_eq_true_iff.mp hc).2
    dsimp only at h
    split_ifs at h with hneeded
    · obtain ⟨_, hcomplete, h⟩ := Checks.bind_ok.mp h
      cases h
      exact ⟨hcreates, loadLockWait_ok hwait, fun _ _ => complete_ok hcomplete⟩
    · cases h
      refine ⟨hcreates, loadLockWait_ok hwait, fun hmode hbegun => ?_⟩
      refine absurd (Bool.and_eq_true_iff.mpr ⟨writable_iff.mpr hmode, ?_⟩) hneeded
      rw [Bool.or_eq_true]
      exact hbegun.imp_left (fun hs => beq_iff_eq.mpr hs)
  · cases h
    refine ⟨nofun, by decide, fun hmode _ => absurd (writable_iff.mpr hmode) ?_⟩
    exact fun hw => hasked (by rw [hw, Bool.true_or])

/-- The REAL journal as it is configured, next to that of paper execution. -/
structure RealReady (host : Host) (mode : TradingMode) (journalPath : Option String) (r : Storage) : Prop where
  required : mode = .real → r.path.isSome = true
  creates : r.create = true → mode = .real
  apart : ∀ p ∈ journalPath, ∀ q ∈ r.path, host.directory p ≠ host.directory q

theorem loadReal_ready {p : Paper} {r : Storage} (h : loadReal host env mode observe p = .ok r) :
    RealReady host mode p.journalPath r := by
  rw [loadReal] at h
  split_ifs at h with hasked
  · generalize env.option "MOOMOO_REAL_JOURNAL_PATH" = path at h
    obtain ⟨hpath, h⟩ := check_bind_ok.mp h
    obtain ⟨creation, -, h⟩ := Checks.bind_ok.mp h
    obtain ⟨hapart, h⟩ := check_bind_ok.mp h
    cases h
    refine ⟨fun hmode => by simpa [hmode] using hpath, fun hc => beq_iff_eq.mp (Bool.and_eq_true_iff.mp hc).2, ?_⟩
    intro a ha b hb
    exact of_decide_eq_true ((Option.all_eq_true _ _).mp ((Option.all_eq_true _ _).mp hapart a ha) b hb)
  · cases h
    refine ⟨fun hmode => absurd ?_ hasked, nofun, fun _ _ _ hb => nomatch hb⟩
    simp [hmode]

/-- What separates the operator from the clients. -/
structure Separated (host : Host) (authToken operatorToken operatorId : String) : Prop where
  authenticated : authToken ≠ ""
  distinct : operatorToken ≠ authToken
  credential : host.credential operatorToken = true
  named : operatorId ≠ "" ∧ operatorId.length ≤ 128 ∧ operatorId.toList.all host.isPrintable = true

theorem checkOperator_ok {authToken operatorToken operatorId : String} (h : checkOperator host authToken operatorToken operatorId = .ok ())
    (hne : operatorToken ≠ "") : Separated host authToken operatorToken operatorId := by
  rw [checkOperator, if_neg hne] at h
  obtain ⟨hauth, h⟩ := check_bind_ok.mp h
  obtain ⟨hdistinct, h⟩ := check_bind_ok.mp h
  obtain ⟨hcredential, h⟩ := check_bind_ok.mp h
  exact ⟨of_decide_eq_true hauth, of_decide_eq_true hdistinct, hcredential, of_decide_eq_true (check_ok.mp h)⟩

/-- The trading controls as they are configured, next to the journals. -/
structure ControlsReady (host : Host) (policy : Deployment) (operatorToken : String) (journals : List String) (c : Storage) :
    Prop where
  operated : operatorToken ≠ "" → c.path.isSome = true
  approvals : policy.mode ≠ .readOnly → policy.requireApproval = true → operatorToken ≠ ""
  budgets : policy.mode ≠ .readOnly → policy.maxDailyNotional ≠ [] → c.path.isSome = true
  creates : c.create = true → policy.mode ≠ .readOnly
  apart : ∀ p ∈ c.path, ∀ journal ∈ journals, host.resolve p ≠ host.resolve journal

theorem loadControls_ready {policy : Deployment} {operatorToken : String} {journals : List String} {c : Storage}
    (h : loadControls host env policy observe operatorToken journals = .ok c) :
    ControlsReady host policy operatorToken journals c := by
  rw [loadControls] at h
  split_ifs at h with hasked
  · generalize env.option "MOOMOO_TRADING_CONTROLS_PATH" = path at h
    obtain ⟨creation, -, h⟩ := Checks.bind_ok.mp h
    obtain ⟨hpath, h⟩ := check_bind_ok.mp h
    obtain ⟨happroval, h⟩ := check_bind_ok.mp h
    obtain ⟨hapart, h⟩ := check_bind_ok.mp h
    cases h
    refine ⟨fun hne => ?_, fun hmode hrequired => ?_, fun _ hdaily => ?_, fun hc => ?_, ?_⟩
    · simpa [hne] using hpath
    · simpa [writable_iff.mpr hmode, hrequired] using happroval
    · simpa [hdaily] using hpath
    · exact writable_iff.mp (Bool.and_eq_true_iff.mp hc).2
    · intro p hp journal hjournal
      exact of_decide_eq_true (List.all_eq_true.mp ((Option.all_eq_true _ _).mp hapart p hp) journal hjournal)
  · cases h
    simp only [Bool.or_eq_true, decide_eq_true_eq, not_or] at hasked
    obtain ⟨⟨hmode, -⟩, htoken⟩ := hasked
    exact ⟨fun hne => absurd hne htoken, fun hw => absurd (writable_iff.mpr hw) hmode,
      fun hw => absurd (writable_iff.mpr hw) hmode, nofun, fun _ hp => nomatch hp⟩

/-- What separates a restricted client from the others. -/
structure Restricted (host : Host) (authToken operatorToken token : String) : Prop where
  authenticated : authToken ≠ ""
  distinct : token ≠ authToken ∧ token ≠ operatorToken
  credential : host.credential token = true

theorem loadRestricted_ok {authToken operatorToken token : String} {grants : Grants}
    (h : loadRestricted host env authToken operatorToken token = .ok grants) :
    (grants = none ↔ token = "") ∧ (token ≠ "" → Restricted host authToken operatorToken token) := by
  rw [loadRestricted] at h
  split_ifs at h with htoken
  · cases h
    exact ⟨iff_of_true rfl htoken, fun hne => absurd htoken hne⟩
  · obtain ⟨hvalid, h⟩ := check_bind_ok.mp h
    obtain ⟨real, -, h⟩ := Checks.bind_ok.mp h
    obtain ⟨simulate, -, h⟩ := Checks.bind_ok.mp h
    obtain ⟨permissions, -, h⟩ := Checks.bind_ok.mp h
    cases h
    refine ⟨iff_of_false nofun htoken, fun _ => ?_⟩
    simp only [Bool.and_eq_true, decide_eq_true_eq] at hvalid
    exact ⟨hvalid.1.1.1, ⟨hvalid.1.1.2, hvalid.1.2⟩, hvalid.2⟩

variable {s : Settings}

/-- The parts of the configuration as their checks left them. -/
structure Loaded (host : Host) (env : Environ) (s : Settings) : Prop where
  stated : Stated env s.policy
  paper : PaperReady env s.policy.mode ⟨s.simulatedAccountAllowlist, s.journalPath, s.createJournal, s.journalLockWaitMs⟩
  real : RealReady host s.policy.mode s.journalPath ⟨s.realJournalPath, s.createRealJournal⟩
  operator : s.operatorAuthToken ≠ "" → Separated host s.authToken s.operatorAuthToken s.operatorId
  controls : ControlsReady host s.policy s.operatorAuthToken (s.journalPath.toList ++ s.realJournalPath.toList)
    ⟨s.controlsPath, s.createControls⟩
  granted : s.restrictedGrants = none ↔ s.restrictedAuthToken = ""
  restricted : s.restrictedAuthToken ≠ "" → Restricted host s.authToken s.operatorAuthToken s.restrictedAuthToken
  market : loadTradingMarket env = .ok s.tradingMarket
  opted : s.allowUnauthenticatedHttp = true ↔ env.text "MCP_ALLOW_UNAUTHENTICATED_HTTP" = "1"
  stripped : s.authToken = env.text "MCP_AUTH_TOKEN" ∧ s.operatorId = env.text "MOOMOO_OPERATOR_ID"

theorem load_loaded (h : load host env = .ok s) : Loaded host env s := by
  obtain ⟨policy, hpolicy, h⟩ := Checks.bind_ok.mp h
  obtain ⟨transport, -, h⟩ := Checks.bind_ok.mp h
  obtain ⟨observe, -, h⟩ := Checks.bind_ok.mp h
  obtain ⟨paper, hpaper, h⟩ := Checks.bind_ok.mp h
  obtain ⟨real, hreal, h⟩ := Checks.bind_ok.mp h
  obtain ⟨_, hoperator, h⟩ := Checks.bind_ok.mp h
  obtain ⟨controls, hcontrols, h⟩ := Checks.bind_ok.mp h
  obtain ⟨grants, hgrants, h⟩ := Checks.bind_ok.mp h
  obtain ⟨port, -, h⟩ := Checks.bind_ok.mp h
  obtain ⟨firm, -, h⟩ := Checks.bind_ok.mp h
  obtain ⟨market, hmarket, h⟩ := Checks.bind_ok.mp h
  obtain ⟨tunnel, -, h⟩ := Checks.bind_ok.mp h
  obtain ⟨currency, -, h⟩ := Checks.bind_ok.mp h
  cases h
  obtain ⟨hnone, hrestricted⟩ := loadRestricted_ok hgrants
  exact ⟨fromEnv_stated hpolicy, loadPaper_ready hpaper, loadReal_ready hreal, checkOperator_ok hoperator,
    loadControls_ready hcontrols, hnone, hrestricted, hmarket, beq_iff_eq, rfl, rfl⟩

theorem checkTransportAuthentication_ok (h : checkTransportAuthentication s = .ok ()) (hnone : s.authToken = "") :
    s.allowUnauthenticatedHttp = true ∧ s.policy.mode = .readOnly := by
  rw [checkTransportAuthentication, if_neg (not_not.mpr hnone)] at h
  split_ifs at h with hopen
  exact hopen

theorem start_ok (h : start host env = .ok s) : Loaded host env s ∧ checkTransportAuthentication s = .ok () := by
  obtain ⟨loaded, hload, h⟩ := Checks.bind_ok.mp h
  obtain ⟨_, hchecked, h⟩ := Checks.bind_ok.mp h
  cases h
  exact ⟨load_loaded hload, hchecked⟩

/-- What holds of every configuration that a process serves with, whatever else its
environment says. -/
structure FailsClosed (host : Host) (env : Environ) (s : Settings) : Prop where
  /-- Writes are asked for by name, and never served without a credential. -/
  writes : s.policy.mode ≠ .readOnly → s.authToken ≠ "" ∧
    ∃ value, env "MOOMOO_TRADING_MODE" = some value ∧ Text.normalize value = s.policy.mode.text
  unauthenticated : s.authToken = "" → env.text "MCP_ALLOW_UNAUTHENTICATED_HTTP" = "1" ∧ s.policy.mode = .readOnly ∧
    s.operatorAuthToken = "" ∧ s.restrictedAuthToken = ""
  real : (s.policy.mode = .real ↔ s.policy.realAccIds ≠ []) ∧ (s.policy.mode = .real → s.realJournalPath.isSome = true)
  paper : s.policy.mode ≠ .readOnly →
    s.policy.mode = .simulate ∨ s.journalPath.isSome = true ∨ s.simulatedAccountAllowlist ≠ [] →
    s.simulatedAccountAllowlist ≠ [] ∧ s.journalPath.isSome = true ∧ s.tradingMarket ∈ ["US", "NONE"]
  capped : s.policy.limits.maxOrderNotional ≠ [] ∨
    Text.normalize (env.textOr TradingPolicy.notionalVariable "USD:500") = "NONE"
  approvals : s.policy.mode ≠ .readOnly → s.policy.requireApproval = true →
    s.operatorAuthToken ≠ "" ∧ s.controlsPath.isSome = true
  budgets : s.policy.mode ≠ .readOnly → s.policy.maxDailyNotional ≠ [] → s.controlsPath.isSome = true
  tokens : (s.operatorAuthToken ≠ "" → s.operatorAuthToken ≠ s.authToken) ∧
    (s.restrictedAuthToken ≠ "" → s.restrictedAuthToken ≠ s.authToken ∧ s.restrictedAuthToken ≠ s.operatorAuthToken)
  journals : ∀ p ∈ s.journalPath, ∀ q ∈ s.realJournalPath, host.directory p ≠ host.directory q
  controls : ∀ p ∈ s.controlsPath, ∀ journal, journal ∈ s.journalPath ∨ journal ∈ s.realJournalPath →
    host.resolve p ≠ host.resolve journal
  creates : (s.createJournal = true ∨ s.createControls = true → s.policy.mode ≠ .readOnly) ∧
    (s.createRealJournal = true → s.policy.mode = .real)

theorem Loaded.failsClosed (hs : Loaded host env s) (hchecked : checkTransportAuthentication s = .ok ()) : FailsClosed host env s := by
  have hopen := checkTransportAuthentication_ok hchecked
  constructor
  case writes =>
    intro hmode
    exact ⟨fun hnone => hmode (hopen hnone).2, hs.stated.intended.resolve_left hmode⟩
  case unauthenticated =>
    intro hnone
    refine ⟨hs.opted.mp (hopen hnone).1, (hopen hnone).2, ?_, ?_⟩
    · by_contra hne
      exact (hs.operator hne).authenticated hnone
    · by_contra hne
      exact (hs.restricted hne).authenticated hnone
  case real => exact ⟨hs.stated.real, hs.real.required⟩
  case paper =>
    intro hmode hneeded
    obtain ⟨hlist, hpath, market, hmarket, hin⟩ := hs.paper.complete hmode (hneeded.imp_right (fun hbegun => by
      rcases hbegun with hpath | hlist
      · simp [Paper.begun, hpath]
      · simp [Paper.begun, hlist]))
    cases hmarket.symm.trans hs.market
    exact ⟨hlist, hpath, hin⟩
  case capped => exact hs.stated.capped
  case approvals =>
    intro hmode hrequired
    have hne := hs.controls.approvals hmode hrequired
    exact ⟨hne, hs.controls.operated hne⟩
  case budgets => exact hs.controls.budgets
  case tokens => exact ⟨fun hne => (hs.operator hne).distinct, fun hne => (hs.restricted hne).distinct⟩
  case journals => exact hs.real.apart
  case controls =>
    intro p hp journal hjournal
    apply hs.controls.apart p hp journal
    simpa using hjournal
  case creates => exact ⟨fun hc => hc.elim hs.paper.creates hs.controls.creates, hs.real.creates⟩

/-- No environment starts a process that trades without being told to, or without what
its trading needs. -/
theorem start_failsClosed (h : start host env = .ok s) : FailsClosed host env s := by
  obtain ⟨hs, hchecked⟩ := start_ok h
  exact hs.failsClosed hchecked

/-- A host that knows ASCII alone and follows no links. -/
def asciiHost : Host where
  isDigit := Char.isDigit
  decimal c := if c.isDigit then some (c.toNat - 48) else none
  isPrintable c := 32 ≤ c.toNat && c.toNat ≤ 126
  resolve path := (path.toList.splitOn '/').map String.ofList
  securityFirms := ["FUTUINC", "FUTUSG"]

/-- A paper deployment with a restricted client and an operator. -/
def paperEnviron : Environ := fun name =>
  [("MOOMOO_TRADING_MODE", "simulate"), ("MOOMOO_MAX_ORDER_NOTIONAL_BY_CURRENCY", "none"),
    ("MOOMOO_SIMULATED_ACC_IDS", " 7"), ("MOOMOO_JOURNAL_PATH", "/data/paper/journal.db"), ("MCP_AUTH_TOKEN", " full "),
    ("MOOMOO_REQUIRE_TRADE_APPROVAL", "1"), ("MOOMOO_TRADING_CONTROLS_PATH", "/data/controls.db"),
    ("MOOMOO_OPERATOR_AUTH_TOKEN", "operator"), ("MOOMOO_OPERATOR_ID", "desk"), ("MCP_RESTRICTED_AUTH_TOKEN", "reader"),
    ("MCP_RESTRICTED_SIMULATE_ACC_IDS", "7")].lookup name

theorem paperEnviron_starts : ∃ s, start asciiHost paperEnviron = .ok s :=
  Checks.ok_of_isSome (by decide +kernel)

theorem paperEnviron_failsClosed : ∃ s, start asciiHost paperEnviron = .ok s ∧ FailsClosed asciiHost paperEnviron s := by
  obtain ⟨s, h⟩ := paperEnviron_starts
  exact ⟨s, h, start_failsClosed h⟩

end Settings

end MoomooMcp
