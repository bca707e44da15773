import MoomooMcp.ClientAuthorization
import MoomooMcp.Numbers

namespace MoomooMcp.Accounts

open Intent ClientAuthorization

inductive TradingMode
  | readOnly
  | simulate
  | real
  deriving DecidableEq, Repr

def TradingMode.text : TradingMode → String
  | .readOnly => "READ_ONLY"
  | .simulate => "SIMULATE"
  | .real => "REAL"

/-- The configuration that decides which accounts a deployment may trade. -/
structure AccountPolicy where
  mode : TradingMode
  realAccIds : List Account
  simulateAllowlist : List Account

def AccountPolicy.writable (policy : AccountPolicy) (requested : String) : Bool :=
  match policy.mode with
  | .readOnly => false
  | .simulate => requested = "SIMULATE"
  | .real => requested = "SIMULATE" ∨ requested = "REAL"

/-- Authorize an order mutation in an environment, or refuse it. -/
def AccountPolicy.checkWrite (policy : AccountPolicy) (operation trdEnv : String) : Except Exc Unit :=
  let requested := Text.normalize trdEnv
  if policy.writable requested then .ok ()
  else
    let detail :=
      if policy.mode = .readOnly then
        "This server is configured read-only, which blocks placing, modifying, and cancelling orders in every " ++
          "environment."
      else if requested = "REAL" ∨ requested = "SIMULATE" then
        "This server is configured for " ++ policy.mode.text ++ " trading, which does not permit " ++ requested ++
          " writes."
      else "'" ++ requested ++ "' is not a recognized trading environment; use 'REAL' or 'SIMULATE'."
    .error ⟨.tradingPolicy, operation ++ " is not permitted: " ++ detail ++
      " Set MOOMOO_TRADING_MODE to the intended mode and restart the server to change this.", false⟩

/-- An account as the broker lists it. -/
structure AccountRow where
  accId : Account
  trdEnv : String
  marketAuth : List String := []
  trdmarketAuth : List String := []

/-- The markets an account may trade, from whichever column the broker filled. -/
def AccountRow.markets (row : AccountRow) : List String :=
  if row.marketAuth = [] then row.trdmarketAuth else row.marketAuth

/-- The rows of an account list that the grants allow to read. -/
def filterReadable (grants : Grants) (rows : List AccountRow) : List AccountRow :=
  rows.filter (fun row => accountAccessAllowed grants row.trdEnv (toString row.accId) false)

def getAccounts (accounts : Except Exc (List AccountRow)) (grants : Grants) : Except Exc (List AccountRow) :=
  accounts.map (filterReadable grants)

def maskAccId (account : Account) : String :=
  let text := toString account
  if 4 < text.length then "..." ++ String.ofList (text.toList.drop (text.length - 4)) else text

/-- Parse an account identifier without passing through floating point. -/
def exactAccountId (accId : String) : Except Exc Account :=
  let text := String.ofList (Text.strip accId.toList)
  exactAccount "acc_id must be an integer or decimal string." text

/-- `int(acc_id)`. A negative identifier names no account. -/
def intAccountId (accId : String) : Except Exc Account :=
  match Text.toInt accId with
  | some (.ofNat n) => .ok n
  | _ => .error (valueError ("invalid literal for int() with base 10: '" ++ accId ++ "'"))

def AccountPolicy.allowlistApplies (policy : AccountPolicy) (trdEnv : String) : Bool :=
  trdEnv = "REAL" && policy.mode = .real

def AccountPolicy.checkRealAllowlist (policy : AccountPolicy) (account : Account) : Except Exc Unit :=
  if policy.realAccIds = [] then
    .error (valueError ("No REAL accounts are configured. Set MOOMOO_REAL_ACC_IDS to the accounts REAL writes may target."))
  else if account ∉ policy.realAccIds then
    .error (valueError ("REAL account " ++ maskAccId account ++
      " is not listed in MOOMOO_REAL_ACC_IDS, so this server may not trade it."))
  else .ok ()

/-- Whether a row is one that a mutation could target: its environment, its
market, the allowlist and the accounts of the client. -/
def eligible (policy : AccountPolicy) (grants : Grants) (trdEnv : String) (market : Option String) (row : AccountRow) :
    Bool :=
  row.trdEnv = trdEnv &&
    (market.filter (fun m => !m.isEmpty)).all (fun m => row.markets.contains (Text.normalize m)) &&
    (!policy.allowlistApplies trdEnv || policy.realAccIds.contains row.accId) &&
    grants.all (fun g =>
      (g.accounts (if trdEnv = "REAL" then .real else .simulate)).all (fun ids => ids.contains row.accId))

/-- The accounts a mutation in this environment could target. The list is read
without the grants, which are applied to it afterwards. -/
def eligibleAccounts (policy : AccountPolicy) (accounts : Except Exc (List AccountRow)) (grants : Grants)
    (trdEnv : String) (market : Option String) : Except Exc (List AccountRow) :=
  match getAccounts accounts none with
  | .error e => .error (valueError ("Could not retrieve the account list to resolve an account: " ++ e.message))
  | .ok rows => .ok (rows.filter (eligible policy grants trdEnv market))

def noAccount (trdEnv : String) (market : Option String) : Exc :=
  let place := (market.filter (fun m => !m.isEmpty)).elim "" (fun m => " authorized for " ++ m)
  valueError ("No " ++ trdEnv ++ " account" ++ place ++ " is eligible for this request. Check get_accounts" ++
    if trdEnv = "REAL" then ", and that the account is listed in MOOMOO_REAL_ACC_IDS." else ".")

def severalAccounts (trdEnv : String) (rows : List AccountRow) : Exc :=
  valueError (toString rows.length ++ " " ++ trdEnv ++ " accounts are eligible (" ++
    ", ".intercalate (rows.map (fun row => maskAccId row.accId)) ++
    "), so acc_id='0' does not identify one. Name the account explicitly with acc_id.")

/-- `_resolve_account`, once the identifier is a number. -/
def resolveExact (policy : AccountPolicy) (accounts : Except Exc (List AccountRow)) (grants : Grants)
    (requestedEnv : String) (market : Option String) (resolved : Account) (write : Bool) : Except Exc Account := do
  if resolved ≠ 0 then
    if policy.allowlistApplies requestedEnv then policy.checkRealAllowlist resolved
    checkAccountAccess grants requestedEnv (toString resolved) write
    return resolved
  else
    match ← eligibleAccounts policy accounts grants requestedEnv market with
    | [row] =>
        checkAccountAccess grants requestedEnv (toString row.accId) write
        return row.accId
    | [] => .error (noAccount requestedEnv market)
    | rows => .error (severalAccounts requestedEnv rows)

/-- Decide which account a mutation targets, or refuse to guess. -/
def resolveAccount (policy : AccountPolicy) (accounts : Except Exc (List AccountRow)) (grants : Grants)
    (trdEnv : String) (market : Option String) (accId : String) (write : Bool) : Except Exc Account := do
  resolveExact policy accounts grants (Text.normalize trdEnv) market (← intAccountId accId) write

def readEnvironment (trdEnv : String) : Except Exc String :=
  match Environment.ofText trdEnv with
  | some env => .ok env.text
  | none => .error (valueError ("trd_env must be one of ['REAL', 'SIMULATE'], got '" ++ trdEnv ++ "'."))

/-- Bind a read to one discovered account in the requested environment. Reads do
not consult the REAL write allowlist. -/
def resolveReadAccount (accounts : Except Exc (List AccountRow)) (grants : Grants) (trdEnv accId : String) :
    Except Exc (String × Account) := do
  let environment ← readEnvironment trdEnv
  let requested ← exactAccountId accId
  if requested ≠ 0 then checkAccountAccess grants environment (toString requested) false
  let rows ← getAccounts accounts grants
  let ids := (rows.filter (fun row => row.trdEnv = environment)).map (·.accId)
  if 0 ∈ ids then .error (valueError "acc_id must be a positive integer.")
  else if requested ≠ 0 then
    if requested ∈ ids then return (environment, requested)
    else .error (valueError ("Account " ++ maskAccId requested ++ " is not available in " ++ environment ++
      ". Call get_accounts and use an explicit account ID from that environment."))
  else
    match ids with
    | [account] => return (environment, account)
    | [] => .error (valueError ("No " ++ environment ++ " account is available to resolve acc_id='0'. Call get_accounts " ++
        "and use an explicit account ID."))
    | _ => .error (valueError (toString ids.length ++ " " ++ environment ++ " accounts are available (" ++
        ", ".intercalate (ids.map maskAccId) ++ "), so acc_id='0' does not identify one. Call get_accounts and use an " ++
        "explicit account ID."))

/-- Whether a row is an allowlisted US simulated account that the client may trade. -/
def paperEligible (policy : AccountPolicy) (grants : Grants) (row : AccountRow) : Bool :=
  row.trdEnv = "SIMULATE" && policy.simulateAllowlist.contains row.accId && row.trdmarketAuth.contains "US" &&
    accountAccessAllowed grants "SIMULATE" (toString row.accId) true

/-- `PaperExecution._account`. The eligible accounts are a set. -/
def paperAccount (policy : AccountPolicy) (accounts : Except Exc (List AccountRow)) (grants : Grants) (accId : String) :
    Except Exc Account := do
  let requested ← exactAccountId accId
  if requested ≠ 0 then
    if requested ∉ policy.simulateAllowlist then
      .error (valueError "Account is not on the simulated-account allowlist")
    checkAccountAccess grants "SIMULATE" (toString requested) true
  let rows ← getAccounts accounts none
  let ids := ((rows.filter (paperEligible policy grants)).map (·.accId)).dedup
  if requested ≠ 0 then
    if requested ∈ ids then return requested
    else .error (valueError "Allowlisted account could not be verified as a US simulated account")
  else
    match ids with
    | [account] => return account
    | _ => .error (valueError "Paper execution requires exactly one eligible account or an explicit acc_id")

end MoomooMcp.Accounts
