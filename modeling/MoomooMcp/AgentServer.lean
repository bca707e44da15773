import Mathlib.Tactic.Tauto
import MoomooMcp.Checks
import MoomooMcp.ClientAuthorization
import MoomooMcp.ToolErrors

namespace MoomooMcp.AgentServer

open ClientAuthorization ToolErrors

/-- An argument of a request, with its `str()` and its truth value where they are not
its own. A collection cannot be an element of a set. -/
inductive Arg
  | null
  | text (s : String)
  | scalar (str : String) (truthy : Bool)
  | collection (str : String) (truthy : Bool)
  deriving DecidableEq

def Arg.str : Arg → String
  | .null => "None"
  | .text s | .scalar s _ | .collection s _ => s

def Arg.truthy : Arg → Bool
  | .null => false
  | .text s => !s.isEmpty
  | .scalar _ truthy | .collection _ truthy => truthy

/-- The arguments that say which account is addressed. -/
structure Scope where
  trdEnv : Option Arg := none
  accId : Option Arg := none
  deriving DecidableEq

/-- The arguments that are read before the tool is called. The parameters are there
where they are a dictionary. -/
structure Arguments extends Scope where
  method : Option Arg := none
  parameters : Option Scope := none
  deriving DecidableEq

/-- `str(arguments.get("trd_env", default_environment) or "")`. -/
def Scope.environment (scope : Scope) (defaultEnvironment : Option String) : String :=
  match scope.trdEnv with
  | none => defaultEnvironment.getD ""
  | some arg => if arg.truthy then arg.str else ""

def Scope.account (scope : Scope) : String := (scope.accId.map Arg.str).getD "0"

def marketTools : List String :=
  ["get_market_snapshot_evidence", "get_instrument_facts", "get_history_kl_quota", "get_rehab",
    "get_corporate_actions_dividends", "get_earnings_calendar", "get_option_volatility", "get_stock_quote",
    "get_historical_klines", "get_historical_klines_page", "get_option_expiration_date", "get_option_chain",
    "get_market_snapshot", "get_order_book", "get_market_state", "get_trading_days", "get_subscriptions",
    "get_user_security_group", "get_user_security", "get_margin_ratio"]

def accountTools : List String :=
  ["get_account_summary", "get_assets", "get_positions", "get_max_tradable", "get_cash_flow", "get_trading_capabilities",
    "get_trade_events", "preview_order", "preview_combo_order", "get_orders", "get_deals", "get_history_orders",
    "get_history_deals", "get_order", "get_order_fees", "get_orders_page", "get_deals_page", "get_history_orders_page",
    "get_history_deals_page", "get_execution", "reconcile_execution"]

def mutationTools : List String := ["place_order", "place_combo_order", "modify_order", "cancel_order"]

def gatewayTools : List String := ["unlock_trade", "lock_trade", "unsubscribe_market_data"]

def permissionAllowed (grants : Grants) (permission : Permission) : Bool :=
  grants.all (fun g => decide (permission ∈ g.permissions))

def checkPermission (grants : Grants) (permission : Permission) : Except Exc Unit :=
  if permissionAllowed grants permission then .ok ()
  else .error (authorizationError "Client permission does not allow this operation")

def toolVisible (grants : Grants) (name : String) : Bool :=
  if grants.isNone || name == "check_health" then true
  else if marketTools.contains name then permissionAllowed grants .marketRead
  else if gatewayTools.contains name then permissionAllowed grants .gatewayControl
  else if mutationTools.contains name || name == "prepare_trade_request" then
    permissionAllowed grants .realWrite || permissionAllowed grants .simulateWrite
  else if accountTools.contains name || ["get_accounts", "get_prepared_trade"].contains name then
    permissionAllowed grants .realRead || permissionAllowed grants .simulateRead
  else false

/-- The environment and the account of a request, which the client must be granted. -/
def authorizeScope (grants : Grants) (scope : Scope) (defaultEnvironment : Option String) (write : Bool) :
    Except Exc Unit :=
  match Environment.ofText (scope.environment defaultEnvironment) with
  | none => .error (authorizationError "Client request must name an allowed environment")
  | some env => do
      checkPermission grants (Permission.ofAccess env write)
      if scope.account ≠ "0" then checkAccountAccess grants env.text scope.account write

def authorizeAccounts (grants : Grants) (environment : Option Arg) : Except Exc Unit :=
  match environment with
  | none | some .null =>
      if permissionAllowed grants .realRead || permissionAllowed grants .simulateRead then .ok ()
      else .error (authorizationError "Client cannot read trading accounts")
  | some arg =>
      match Environment.ofText arg.str with
      | none => .error (authorizationError "Client request has no authorized scope")
      | some env => checkPermission grants (Permission.ofAccess env false)

/-- `method not in MUTATION_TOOLS`, which an unhashable method does not survive. -/
def checkMethod : Option Arg → Except Exc Unit
  | some (.text method) =>
      if mutationTools.contains method then .ok () else .error (authorizationError "Client cannot prepare this operation")
  | some (.collection _ _) => .error ⟨.type, "unhashable type", false⟩
  | none | some .null | some (.scalar _ _) => .error (authorizationError "Client cannot prepare this operation")

/-- Explicitly classify tools; future tools receive no restricted grant. -/
def authorizeTool (grants : Grants) (name : String) (arguments : Arguments) (defaultEnvironment : Option String) :
    Except Exc Unit :=
  if grants.isNone then .ok ()
  else if marketTools.contains name then checkPermission grants .marketRead
  else if gatewayTools.contains name then checkPermission grants .gatewayControl
  else if name = "get_accounts" then authorizeAccounts grants arguments.trdEnv
  else if name = "check_health" ∨ name = "get_prepared_trade" then .ok ()
  else if name = "prepare_trade_request" then do
    checkMethod arguments.method
    match arguments.parameters with
    | none => .error (authorizationError "Client request has no authorized scope")
    | some scope => authorizeScope grants scope defaultEnvironment true
  else if mutationTools.contains name || accountTools.contains name then
    authorizeScope grants arguments.toScope defaultEnvironment (mutationTools.contains name)
  else .error (authorizationError "Client has no grant for this tool")

variable {σ ρ : Type}

/-- The error that arguments raise which do not match their schema. -/
structure ValidationError where
  title : String
  issues : List Issue
  message : String

/-- A tool error in front of it, which has no other cause. -/
def ValidationError.failure (e : ValidationError) : Failure :=
  .of ⟨.validation e.title e.issues, e.message⟩ "Tool arguments do not match the schema."

/-- A registered tool: what the server reads of it, the validation of its arguments,
and what it does to the state of the services. -/
structure Tool (σ ρ : Type) where
  inputModel : String
  destructiveHint : Bool
  readOnlyHint : Bool
  defaultEnvironment : Option String
  validate : Arguments → Option ValidationError
  run : Arguments → σ → Except Failure ρ × σ

/-- The tools under their names. -/
abbrev Server (σ ρ : Type) := String → Option (Tool σ ρ)

structure Request where
  grants : Grants
  name : String
  arguments : Arguments
  checkedAt : String

inductive Response (ρ : Type)
  | result (value : ρ)
  | failed (payload : Payload)
  | raised (e : Exc)

def unknownTool (r : Request) : Payload where
  errorCode := "UNKNOWN_TOOL"
  tool := r.name
  operation := r.name
  checkedAt := r.checkedAt
  message := "This tool is not available."
  nextAction := "Inspect tools/list and choose an available tool."

def permissionDenied (r : Request) : Payload where
  errorCode := "CLIENT_PERMISSION_DENIED"
  tool := r.name
  operation := r.name
  checkedAt := r.checkedAt
  message := "The authenticated client is not authorized " ++ "for this operation or account."
  nextAction := "Use a client credential with the required grant; " ++ "preserve the requested scope."

def Tool.call (tool : Tool σ ρ) (r : Request) (inputValidation : Bool) : Call where
  name := r.name
  inputModel := tool.inputModel
  consequential := tool.destructiveHint
  readOnly := tool.readOnlyHint
  inputValidation := inputValidation
  checkedAt := r.checkedAt

def Tool.answer (tool : Tool σ ρ) (r : Request) : Except Failure ρ → Response ρ
  | .ok value => .result value
  | .error f => .failed (toolErrorResult f (tool.call r false))

/-- `_call_tool_with_errors`. The arguments are validated before any code of the tool runs. -/
def callToolWithErrors (server : Server σ ρ) (r : Request) (s : σ) : Response ρ × σ :=
  match server r.name with
  | none => (.failed (unknownTool r), s)
  | some tool =>
      match authorizeTool r.grants r.name r.arguments tool.defaultEnvironment with
      | .error e => (if e.type = .other then .failed (permissionDenied r) else .raised e, s)
      | .ok _ =>
          match tool.validate r.arguments with
          | some e => (.failed (toolErrorResult e.failure (tool.call r true)), s)
          | none => (tool.answer r (tool.run r.arguments s).1, (tool.run r.arguments s).2)

/-- The registered tools that a client is shown. -/
def listTools (names : List String) (grants : Grants) : List String := names.filter (toolVisible grants)

variable {grants : Grants} {g g' : ClientGrants} {name : String} {arguments : Arguments} {scope : Scope}
  {defaultEnvironment : Option String} {write : Bool}

/-- The client is granted the environment and the account that a request names. -/
def InScope (g : ClientGrants) (scope : Scope) (defaultEnvironment : Option String) (write : Bool) : Prop :=
  ∃ env, Environment.ofText (scope.environment defaultEnvironment) = some env ∧
    Permission.ofAccess env write ∈ g.permissions ∧
    (scope.account ≠ "0" → ∀ ids ∈ g.accounts env, Text.isDecimal scope.account = true ∧ Text.toNat scope.account ∈ ids)

/-- The grants that let a client call a tool. -/
inductive Granted (g : ClientGrants) (name : String) (arguments : Arguments) (defaultEnvironment : Option String) : Prop
  | market (hname : name ∈ marketTools) (h : .marketRead ∈ g.permissions) : Granted g name arguments defaultEnvironment
  | gateway (hname : name ∈ gatewayTools) (h : .gatewayControl ∈ g.permissions) :
      Granted g name arguments defaultEnvironment
  | accounts (env : Environment) (hname : name = "get_accounts") (h : Permission.ofAccess env false ∈ g.permissions) :
      Granted g name arguments defaultEnvironment
  | health (hname : name = "check_health") : Granted g name arguments defaultEnvironment
  | prepared (hname : name = "get_prepared_trade") : Granted g name arguments defaultEnvironment
  | preparation {method : String} {scope : Scope} (hname : name = "prepare_trade_request")
      (hmethod : arguments.method = some (.text method) ∧ method ∈ mutationTools) (hscope : arguments.parameters = some scope)
      (h : InScope g scope defaultEnvironment true) : Granted g name arguments defaultEnvironment
  | mutation (hname : name ∈ mutationTools) (h : InScope g arguments.toScope defaultEnvironment true) :
      Granted g name arguments defaultEnvironment
  | account (hname : name ∈ accountTools) (h : InScope g arguments.toScope defaultEnvironment false) :
      Granted g name arguments defaultEnvironment

theorem permissionAllowed_some {permission : Permission} :
    permissionAllowed (some g) permission = true ↔ permission ∈ g.permissions := by
  simp [permissionAllowed]

theorem checkPermission_ok {permission : Permission} :
    checkPermission grants permission = .ok () ↔ permissionAllowed grants permission = true := by
  unfold checkPermission
  split_ifs with h
  · exact iff_of_true rfl h
  · exact iff_of_false nofun h

theorem checkAccountAccess_ok {env : Environment} {account : String} :
    checkAccountAccess (some g) env.text account write = .ok () ↔ Permission.ofAccess env write ∈ g.permissions ∧
      ∀ ids ∈ g.accounts env, Text.isDecimal account = true ∧ Text.toNat account ∈ ids := by
  have hallowed : accountAccessAllowed (some g) env.text account write = true ↔
      Permission.ofAccess env write ∈ g.permissions ∧
        ∀ ids ∈ g.accounts env, Text.isDecimal account = true ∧ Text.toNat account ∈ ids := by
    simp only [accountAccessAllowed, ofText_text, Bool.and_eq_true, decide_eq_true_eq]
    cases g.accounts env <;> simp
  rw [← hallowed, checkAccountAccess]
  split_ifs with h
  · exact iff_of_true rfl h
  · refine iff_of_false (fun hok => ?_) h
    cases hok

theorem authorizeScope_ok : authorizeScope (some g) scope defaultEnvironment write = .ok () ↔
    InScope g scope defaultEnvironment write := by
  unfold authorizeScope InScope
  cases henv : Environment.ofText (scope.environment defaultEnvironment) with
  | none => exact iff_of_false nofun (by rintro ⟨_, h, _⟩; cases h)
  | some env =>
      dsimp only
      constructor
      · intro h
        obtain ⟨_, hpermission, h⟩ := Checks.bind_ok.mp h
        refine ⟨env, rfl, permissionAllowed_some.mp (checkPermission_ok.mp hpermission), fun haccount => ?_⟩
        rw [if_pos haccount] at h
        exact (checkAccountAccess_ok.mp h).2
      · rintro ⟨_, henv', hpermission, haccount⟩
        cases henv'
        refine Checks.bind_ok.mpr ⟨(), checkPermission_ok.mpr (permissionAllowed_some.mpr hpermission), ?_⟩
        split_ifs with hzero
        · exact checkAccountAccess_ok.mpr ⟨hpermission, haccount hzero⟩
        · rfl

theorem authorizeAccounts_ok {environment : Option Arg} (h : authorizeAccounts (some g) environment = .ok ()) :
    ∃ env, Permission.ofAccess env false ∈ g.permissions := by
  have hany : (if permissionAllowed (some g) .realRead || permissionAllowed (some g) .simulateRead then Except.ok ()
      else Except.error (authorizationError "Client cannot read trading accounts")) = .ok () →
      ∃ env, Permission.ofAccess env false ∈ g.permissions := by
    intro h
    split_ifs at h with hread
    rcases Bool.or_eq_true_iff.mp hread with hread | hread
    · exact ⟨.real, permissionAllowed_some.mp hread⟩
    · exact ⟨.simulate, permissionAllowed_some.mp hread⟩
  have hnamed : ∀ text : String, (match Environment.ofText text with
      | none => Except.error (authorizationError "Client request has no authorized scope")
      | some env => checkPermission (some g) (Permission.ofAccess env false)) = .ok () →
      ∃ env, Permission.ofAccess env false ∈ g.permissions := by
    intro text h
    cases henv : Environment.ofText text with
    | none => rw [henv] at h; cases h
    | some env =>
        rw [henv] at h
        exact ⟨env, permissionAllowed_some.mp (checkPermission_ok.mp h)⟩
  cases environment with
  | none => exact hany h
  | some arg =>
      cases arg with
      | null => exact hany h
      | text | scalar | collection =>
          simp only [authorizeAccounts] at h
          exact hnamed _ h

theorem checkMethod_ok {method : Option Arg} (h : checkMethod method = .ok ()) :
    ∃ text, method = some (.text text) ∧ text ∈ mutationTools := by
  unfold checkMethod at h
  split at h
  · rename_i text
    split_ifs at h with hmethod
    exact ⟨text, rfl, List.contains_iff_mem.mp hmethod⟩
  all_goals cases h

/-- What a restricted client calls is granted to it. -/
theorem granted_of_authorized (h : authorizeTool (some g) name arguments defaultEnvironment = .ok ()) :
    Granted g name arguments defaultEnvironment := by
  unfold authorizeTool at h
  rw [if_neg nofun] at h
  split_ifs at h with hmarket hgateway haccounts hopen hprepare hscoped
  · exact .market (List.contains_iff_mem.mp hmarket) (permissionAllowed_some.mp (checkPermission_ok.mp h))
  · exact .gateway (List.contains_iff_mem.mp hgateway) (permissionAllowed_some.mp (checkPermission_ok.mp h))
  · obtain ⟨env, henv⟩ := authorizeAccounts_ok h
    exact .accounts env haccounts henv
  · rcases hopen with hname | hname
    · exact .health hname
    · exact .prepared hname
  · obtain ⟨_, hmethod, h⟩ := Checks.bind_ok.mp h
    obtain ⟨text, hmethod⟩ := checkMethod_ok hmethod
    cases hscope : arguments.parameters with
    | none => rw [hscope] at h; cases h
    | some scope =>
        rw [hscope] at h
        exact .preparation hprepare hmethod hscope (authorizeScope_ok.mp h)
  · cases hmutation : mutationTools.contains name with
    | true =>
        rw [hmutation] at h
        exact .mutation (List.contains_iff_mem.mp hmutation) (authorizeScope_ok.mp h)
    | false =>
        rw [hmutation, Bool.false_or] at hscoped
        rw [hmutation] at h
        exact .account (List.contains_iff_mem.mp hscoped) (authorizeScope_ok.mp h)

/-- The tools that change an order or prepare the change. -/
def writingTools : List String := "prepare_trade_request" :: mutationTools

/-- The tools that read of an account. -/
def readingTools : List String := "get_accounts" :: "get_prepared_trade" :: accountTools

theorem apart {xs ys : List String} (h : xs.all (fun n => !ys.contains n) = true) (hn : name ∈ xs) : name ∉ ys := by
  simpa using List.all_eq_true.mp h name hn

theorem market_apart (h : name ∈ "check_health" :: gatewayTools ++ writingTools ++ readingTools) : name ∉ marketTools := by
  apply apart _ h
  decide +kernel

theorem gateway_apart (h : name ∈ "check_health" :: writingTools ++ readingTools) : name ∉ gatewayTools := by
  apply apart _ h
  decide +kernel

theorem writing_apart (h : name ∈ readingTools) : name ∉ writingTools := by
  apply apart _ h
  decide +kernel

theorem health_apart (h : name ∈ marketTools ++ gatewayTools ++ writingTools ++ readingTools) : name ≠ "check_health" := by
  have hmem : name ∉ ["check_health"] := by
    apply apart _ h
    decide +kernel
  simpa using hmem

theorem writing_iff : (mutationTools.contains name || name == "prepare_trade_request") = true ↔ name ∈ writingTools := by
  simp [writingTools, or_comm]

theorem reading_iff : (accountTools.contains name || ["get_accounts", "get_prepared_trade"].contains name) = true ↔
    name ∈ readingTools := by
  simp [readingTools, or_comm, or_assoc]

theorem visible_market (h : name ∈ marketTools) : toolVisible (some g) name = permissionAllowed (some g) .marketRead := by
  have hhealth : name ≠ "check_health" := health_apart (by simp [h])
  simp [toolVisible, hhealth, h]

theorem visible_gateway (h : name ∈ gatewayTools) : toolVisible (some g) name = permissionAllowed (some g) .gatewayControl := by
  have hhealth : name ≠ "check_health" := health_apart (by simp [h])
  have hmarket : name ∉ marketTools := market_apart (by simp [h])
  simp [toolVisible, hhealth, hmarket, h]

theorem visible_writing (h : name ∈ writingTools) : toolVisible (some g) name =
    (permissionAllowed (some g) .realWrite || permissionAllowed (some g) .simulateWrite) := by
  have hhealth : name ≠ "check_health" := health_apart (by simp [h])
  have hmarket : name ∉ marketTools := market_apart (by simp [h])
  have hgateway : name ∉ gatewayTools := gateway_apart (by simp [h])
  simp only [toolVisible, writing_iff, h, if_true]
  simp [hhealth, hmarket, hgateway]

theorem visible_reading (h : name ∈ readingTools) : toolVisible (some g) name =
    (permissionAllowed (some g) .realRead || permissionAllowed (some g) .simulateRead) := by
  have hhealth : name ≠ "check_health" := health_apart (by simp [h])
  have hmarket : name ∉ marketTools := market_apart (by simp [h])
  have hgateway : name ∉ gatewayTools := gateway_apart (by simp [h])
  have hwriting : name ∉ writingTools := writing_apart h
  simp only [toolVisible, writing_iff, reading_iff, h, hwriting, if_true, if_false]
  simp [hhealth, hmarket, hgateway]

theorem InScope.permission (h : InScope g scope defaultEnvironment write) : ∃ env, Permission.ofAccess env write ∈ g.permissions := by
  obtain ⟨env, _, hpermission, _⟩ := h
  exact ⟨env, hpermission⟩

/-- The access to one of the environments, whichever it is. -/
theorem permission_either : (permissionAllowed (some g) (Permission.ofAccess .real write) ||
    permissionAllowed (some g) (Permission.ofAccess .simulate write)) = true ↔
      ∃ env, Permission.ofAccess env write ∈ g.permissions := by
  rw [Bool.or_eq_true_iff, permissionAllowed_some, permissionAllowed_some]
  constructor
  · rintro (h | h)
    · exact ⟨.real, h⟩
    · exact ⟨.simulate, h⟩
  · rintro ⟨env, h⟩
    cases env with
    | real => exact .inl h
    | simulate => exact .inr h

/-- A restricted client is shown what some grant lets it call. -/
theorem visible_of_granted (h : Granted g name arguments defaultEnvironment) (hname : name ≠ "get_prepared_trade") :
    toolVisible (some g) name = true := by
  cases h with
  | market hn h =>
      rw [visible_market hn]
      exact permissionAllowed_some.mpr h
  | gateway hn h =>
      rw [visible_gateway hn]
      exact permissionAllowed_some.mpr h
  | accounts env hn h =>
      rw [visible_reading (hn ▸ List.mem_cons_self)]
      exact permission_either.mpr ⟨env, h⟩
  | health hn => subst hn; rfl
  | prepared hn => exact absurd hn hname
  | preparation hn _ _ h =>
      rw [visible_writing (hn ▸ List.mem_cons_self)]
      exact permission_either.mpr h.permission
  | mutation hn h =>
      rw [visible_writing (List.mem_cons_of_mem _ hn)]
      exact permission_either.mpr h.permission
  | account hn h =>
      rw [visible_reading (List.mem_cons_of_mem _ (List.mem_cons_of_mem _ hn))]
      exact permission_either.mpr h.permission

/-- Arguments that name an environment, to a tool and to a preparation. -/
def naming (env : Environment) : Arguments where
  trdEnv := some (.text env.text)
  method := some (.text "place_order")
  parameters := some { trdEnv := some (.text env.text) }

theorem authorizeScope_naming {env : Environment} (h : Permission.ofAccess env write ∈ g.permissions) :
    authorizeScope (some g) { trdEnv := some (.text env.text) } defaultEnvironment write = .ok () := by
  refine authorizeScope_ok.mpr ⟨env, ?_, h, fun hzero => absurd rfl hzero⟩
  rw [← ofText_text env]
  cases env <;> rfl

theorem authorizeAccounts_naming {env : Environment} (h : Permission.ofAccess env false ∈ g.permissions) :
    authorizeAccounts (some g) (naming env).trdEnv = .ok () := by
  simp only [naming, authorizeAccounts, Arg.str, ofText_text]
  exact checkPermission_ok.mpr (permissionAllowed_some.mpr h)

theorem authorize_market (h : name ∈ marketTools) :
    authorizeTool (some g) name arguments defaultEnvironment = checkPermission (some g) .marketRead := by
  simp [authorizeTool, h]

theorem authorize_gateway (h : name ∈ gatewayTools) :
    authorizeTool (some g) name arguments defaultEnvironment = checkPermission (some g) .gatewayControl := by
  have hmarket : name ∉ marketTools := market_apart (by simp [h])
  simp [authorizeTool, hmarket, h]

theorem authorize_open (h : name = "check_health" ∨ name = "get_prepared_trade") :
    authorizeTool (some g) name arguments defaultEnvironment = .ok () := by
  have hmem : name ∈ "check_health" :: writingTools ++ readingTools := by
    rcases h with rfl | rfl <;> simp [readingTools]
  have hmarket : name ∉ marketTools := market_apart (by
    simp only [List.cons_append, List.mem_cons, List.mem_append] at hmem ⊢
    tauto)
  have hgateway : name ∉ gatewayTools := gateway_apart hmem
  have haccounts : name ≠ "get_accounts" := by
    rcases h with rfl | rfl <;> decide
  simp [authorizeTool, hmarket, hgateway, haccounts, h]

theorem authorize_accounts :
    authorizeTool (some g) "get_accounts" arguments defaultEnvironment = authorizeAccounts (some g) arguments.trdEnv := by
  have hmarket : "get_accounts" ∉ marketTools := market_apart (by simp [readingTools])
  have hgateway : "get_accounts" ∉ gatewayTools := gateway_apart (by simp [readingTools])
  simp [authorizeTool, hmarket, hgateway]

theorem authorize_prepare : authorizeTool (some g) "prepare_trade_request" arguments defaultEnvironment =
    (checkMethod arguments.method).bind (fun _ =>
      match arguments.parameters with
      | none => .error (authorizationError "Client request has no authorized scope")
      | some scope => authorizeScope (some g) scope defaultEnvironment true) := by
  have hmarket : "prepare_trade_request" ∉ marketTools := market_apart (by simp [writingTools])
  have hgateway : "prepare_trade_request" ∉ gatewayTools := gateway_apart (by simp [writingTools])
  simp only [authorizeTool, List.contains_iff_mem, hmarket, hgateway, Option.isNone_some, if_false]
  rfl

theorem authorize_preparing {env : Environment} (h : Permission.ofAccess env true ∈ g.permissions) :
    authorizeTool (some g) "prepare_trade_request" (naming env) defaultEnvironment = .ok () := by
  have hmethod : checkMethod (naming env).method = .ok () := by simp [naming, checkMethod, mutationTools]
  rw [authorize_prepare, hmethod]
  simp only [naming, Except.bind]
  exact authorizeScope_naming h

theorem authorize_mutation (h : name ∈ mutationTools) : authorizeTool (some g) name arguments defaultEnvironment =
    authorizeScope (some g) arguments.toScope defaultEnvironment true := by
  have hwriting : name ∈ writingTools := List.mem_cons_of_mem _ h
  have hmarket : name ∉ marketTools := market_apart (by simp [hwriting])
  have hgateway : name ∉ gatewayTools := gateway_apart (by simp [hwriting])
  have hhealth : name ≠ "check_health" := health_apart (by simp [hwriting])
  have hreading : name ∉ readingTools := fun hn => writing_apart hn hwriting
  have haccounts : name ≠ "get_accounts" := fun hn => hreading (hn ▸ List.mem_cons_self)
  have hprepared : name ≠ "get_prepared_trade" := fun hn => hreading (hn ▸ List.mem_cons_of_mem _ List.mem_cons_self)
  have hprepare : name ≠ "prepare_trade_request" := by
    rintro rfl
    revert h
    decide
  simp [authorizeTool, hmarket, hgateway, haccounts, hhealth, hprepared, hprepare, h]

theorem authorize_account (h : name ∈ accountTools) : authorizeTool (some g) name arguments defaultEnvironment =
    authorizeScope (some g) arguments.toScope defaultEnvironment false := by
  have hreading : name ∈ readingTools := List.mem_cons_of_mem _ (List.mem_cons_of_mem _ h)
  have hmarket : name ∉ marketTools := market_apart (by simp [hreading])
  have hgateway : name ∉ gatewayTools := gateway_apart (by simp [hreading])
  have hhealth : name ≠ "check_health" := health_apart (by simp [hreading])
  have hwriting : name ∉ writingTools := writing_apart hreading
  have hprepare : name ≠ "prepare_trade_request" := fun hn => hwriting (hn ▸ List.mem_cons_self)
  have hmutation : name ∉ mutationTools := fun hn => hwriting (List.mem_cons_of_mem _ hn)
  have haccounts : name ∉ ["get_accounts", "get_prepared_trade"] := by
    apply apart _ h
    decide +kernel
  simp only [List.mem_cons, List.not_mem_nil, or_false, not_or] at haccounts
  simp [authorizeTool, hmarket, hgateway, haccounts.1, haccounts.2, hhealth, hprepare, hmutation, h]

/-- What a client is shown it can call, with some arguments. -/
theorem authorized_of_visible (h : toolVisible (some g) name = true) (defaultEnvironment : Option String) :
    ∃ arguments, authorizeTool (some g) name arguments defaultEnvironment = .ok () := by
  by_cases hmarket : name ∈ marketTools
  · rw [visible_market hmarket] at h
    exact ⟨naming .real, (authorize_market hmarket).trans (checkPermission_ok.mpr h)⟩
  by_cases hgateway : name ∈ gatewayTools
  · rw [visible_gateway hgateway] at h
    exact ⟨naming .real, (authorize_gateway hgateway).trans (checkPermission_ok.mpr h)⟩
  by_cases hwriting : name ∈ writingTools
  · rw [visible_writing hwriting] at h
    obtain ⟨env, hpermission⟩ := (permission_either : _ ↔ ∃ env, Permission.ofAccess env true ∈ g.permissions).mp h
    refine ⟨naming env, ?_⟩
    rcases List.mem_cons.mp hwriting with rfl | hmutation
    · exact authorize_preparing hpermission
    · exact (authorize_mutation hmutation).trans (authorizeScope_naming hpermission)
  by_cases hreading : name ∈ readingTools
  · rw [visible_reading hreading] at h
    obtain ⟨env, hpermission⟩ := (permission_either : _ ↔ ∃ env, Permission.ofAccess env false ∈ g.permissions).mp h
    refine ⟨naming env, ?_⟩
    rcases List.mem_cons.mp hreading with rfl | hother
    · rw [authorize_accounts]
      exact authorizeAccounts_naming hpermission
    · rcases List.mem_cons.mp hother with rfl | haccount
      · exact authorize_open (.inr rfl)
      · exact (authorize_account haccount).trans (authorizeScope_naming hpermission)
  · by_cases hhealth : name = "check_health"
    · subst hhealth
      exact ⟨naming .real, authorize_open (.inl rfl)⟩
    · unfold toolVisible at h
      simp only [writing_iff, reading_iff, hwriting, hreading, if_false] at h
      simp [hhealth, hmarket, hgateway] at h

variable {server : Server σ ρ} {r : Request} {s : σ} {tool : Tool σ ρ}

/-- A request that runs the body of its tool: it is authorized and its arguments are valid. -/
structure Runs (server : Server σ ρ) (r : Request) (tool : Tool σ ρ) : Prop where
  found : server r.name = some tool
  authorized : authorizeTool r.grants r.name r.arguments tool.defaultEnvironment = .ok ()
  valid : tool.validate r.arguments = none

/-- The answers to a request that runs nothing. -/
inductive Refused (server : Server σ ρ) (r : Request) : Response ρ → Prop
  | unknown (h : server r.name = none) : Refused server r (.failed (unknownTool r))
  | denied {tool e} (h : server r.name = some tool)
      (herror : authorizeTool r.grants r.name r.arguments tool.defaultEnvironment = .error e) (htype : e.type = .other) :
      Refused server r (.failed (permissionDenied r))
  | raised {tool e} (h : server r.name = some tool)
      (herror : authorizeTool r.grants r.name r.arguments tool.defaultEnvironment = .error e) (htype : e.type ≠ .other) :
      Refused server r (.raised e)
  | invalid {tool e} (h : server r.name = some tool) (herror : tool.validate r.arguments = some e) :
      Refused server r (.failed (toolErrorResult e.failure (tool.call r true)))

theorem call_cases (server : Server σ ρ) (r : Request) (s : σ) :
    (∃ tool, Runs server r tool ∧ callToolWithErrors server r s =
      (tool.answer r (tool.run r.arguments s).1, (tool.run r.arguments s).2)) ∨
    (¬∃ tool, Runs server r tool) ∧ ∃ answer, Refused server r answer ∧ callToolWithErrors server r s = (answer, s) := by
  unfold callToolWithErrors
  cases hfound : server r.name with
  | none =>
      refine .inr ⟨?_, _, .unknown hfound, rfl⟩
      rintro ⟨tool, h⟩
      cases hfound.symm.trans h.found
  | some tool =>
      have hsame : ∀ {tool'}, Runs server r tool' → tool' = tool := fun h => Option.some.inj (h.found.symm.trans hfound)
      dsimp only
      cases hauthorized : authorizeTool r.grants r.name r.arguments tool.defaultEnvironment with
      | error e =>
          refine .inr ⟨?_, ?_⟩
          · rintro ⟨tool', h⟩
            cases hsame h
            cases hauthorized.symm.trans h.authorized
          · dsimp only
            split_ifs with htype
            · exact ⟨_, .denied hfound hauthorized htype, rfl⟩
            · exact ⟨_, .raised hfound hauthorized htype, rfl⟩
      | ok _ =>
          dsimp only
          cases hvalid : tool.validate r.arguments with
          | none => exact .inl ⟨tool, ⟨hfound, hauthorized, hvalid⟩, rfl⟩
          | some f =>
              refine .inr ⟨?_, _, .invalid hfound hvalid, rfl⟩
              rintro ⟨tool', h⟩
              cases hsame h
              cases hvalid.symm.trans h.valid

/-- The order of a mutation is known not to be out there. -/
def Unsent (f : Failure) : Prop :=
  (∀ k x, f.behind k = some x → x.outcome = false) ∧ ∃ k x, f.behind k = some x ∧ x.refusal = true

theorem failure_causes (e : ValidationError) {k : ℕ} {x : Problem} (h : e.failure.behind k = some x) :
    x.refusal = false := by
  rw [behind_of h]
  rfl

/-- What a client may conclude from the payload of any call. NOT_SENT is told only of a
request that ran nothing and left the state as it was, of a failure that the order
boundary refused, or of a token that a tool without consequences rejected. A record of
the journal is claimed only on the word of an admitted refusal of the tool that ran. A
retry is offered only by a tool without consequences. -/
theorem call_sound (server : Server σ ρ) (r : Request) (s : σ) (payload : Payload)
    (h : (callToolWithErrors server r s).1 = .failed payload) :
    (payload.mutationOutcome = some .notSent →
      ((¬∃ tool, Runs server r tool) ∧ (callToolWithErrors server r s).2 = s) ∨
      ∃ tool f, Runs server r tool ∧ (tool.run r.arguments s).1 = .error f ∧
        (Unsent f ∨ tool.destructiveHint = false ∧ ∃ token, f.problem.kind = .identityToken token)) ∧
    (payload.created = some true →
      ∃ tool f item, Runs server r tool ∧ (tool.run r.arguments s).1 = .error f ∧
        f.Nearest Problem.refusal item ∧ item.kind = .orderNotSent true) ∧
    (payload.retryable = true → ∃ tool, server r.name = some tool ∧ tool.destructiveHint = false ∧
      (tool.readOnlyHint || quoteTools.contains r.name) = true) := by
  rcases call_cases server r s with ⟨tool, hruns, hcall⟩ | ⟨hidle, answer, hrefused, hcall⟩
  · rw [hcall] at h
    cases hrun : (tool.run r.arguments s).1 with
    | ok value => rw [hrun] at h; cases h
    | error f =>
        rw [hrun] at h
        cases h
        obtain ⟨hsent, _, hcreated, hretryable, _⟩ := toolErrorResult_verdict f (tool.call r false)
        refine ⟨fun hn => .inr ⟨tool, f, hruns, hrun, ?_⟩, fun hn => ?_, fun hn => ?_⟩
        · obtain ⟨hunknown, hrefusal | ⟨_, _, hphase⟩ | ⟨hplain, htoken⟩⟩ := hsent.mp hn
          · exact .inl ⟨hunknown, hrefusal⟩
          · cases hphase
          · exact .inr ⟨hplain, htoken⟩
        · obtain ⟨_, item, hnearest, hkind⟩ := hcreated.mp hn
          exact ⟨tool, f, item, hruns, hrun, hnearest, hkind⟩
        · obtain ⟨_, hplain, _, hread⟩ := hretryable.mp hn
          exact ⟨tool, hruns.found, hplain, hread⟩
  · rw [hcall] at h ⊢
    dsimp only at h
    subst h
    refine ⟨fun _ => .inl ⟨hidle, rfl⟩, fun hn => ?_, fun hn => ?_⟩
    · cases hrefused with
      | unknown | denied => cases hn
      | @invalid tool e =>
          obtain ⟨_, item, ⟨k, hk, hitem, _⟩, _⟩ := (toolErrorResult_verdict e.failure (tool.call r true)).created.mp hn
          rw [failure_causes e hk] at hitem
          cases hitem
    · cases hrefused with
      | unknown | denied => cases hn
      | @invalid tool e hfound =>
          obtain ⟨_, hplain, _, hread⟩ := (toolErrorResult_verdict e.failure (tool.call r true)).retryable.mp hn
          exact ⟨tool, hfound, hplain, hread⟩

/-- A server of one tool, which the order boundary refuses after the admission. -/
def refusing : Server ℕ Unit := fun _ =>
  some ⟨"place_orderArguments", true, false, none, fun _ => none,
    fun _ s => (.error (.of ⟨.orderNotSent true, "paper place was refused"⟩ "Error executing tool place_order"), s)⟩

def placing : Request := ⟨none, "place_order", naming .simulate, "2026-01-02T03:04:05Z"⟩

theorem placing_admitted : ∃ tool f item, Runs refusing placing tool ∧ (tool.run placing.arguments 0).1 = .error f ∧
    f.Nearest Problem.refusal item ∧ item.kind = .orderNotSent true := by
  have hcall := call_sound refusing placing 0 _ rfl
  exact hcall.2.1 rfl

/-- A sequence of requests of any clients, served one after the other. -/
def serve (server : Server σ ρ) (requests : List Request) (s : σ) : σ :=
  requests.foldl (fun s r => (callToolWithErrors server r s).2) s

def runs (server : Server σ ρ) (r : Request) : Bool :=
  match server r.name with
  | none => false
  | some tool =>
      (authorizeTool r.grants r.name r.arguments tool.defaultEnvironment).isOk && (tool.validate r.arguments).isNone

theorem runs_iff : runs server r = true ↔ ∃ tool, Runs server r tool := by
  unfold runs
  cases hfound : server r.name with
  | none => exact iff_of_false nofun (by rintro ⟨tool, h⟩; cases hfound.symm.trans h.found)
  | some tool =>
      dsimp only
      rw [Bool.and_eq_true, Option.isNone_iff_eq_none]
      constructor
      · rintro ⟨hok, hvalid⟩
        cases hauthorized : authorizeTool r.grants r.name r.arguments tool.defaultEnvironment with
        | error e => rw [hauthorized] at hok; cases hok
        | ok _ => exact ⟨tool, hfound, hauthorized, hvalid⟩
      · rintro ⟨tool', h⟩
        cases h.found.symm.trans hfound
        exact ⟨by rw [h.authorized]; rfl, h.valid⟩

theorem call_of_not_runs (h : runs server r = false) (s : σ) : (callToolWithErrors server r s).2 = s := by
  rcases call_cases server r s with ⟨tool, hruns, _⟩ | ⟨_, answer, _, hcall⟩
  · rw [runs_iff.mpr ⟨tool, hruns⟩] at h
    cases h
  · rw [hcall]

end MoomooMcp.AgentServer
