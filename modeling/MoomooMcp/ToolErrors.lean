import Mathlib.Data.List.Dedup
import MoomooMcp.Health
import MoomooMcp.Trail

namespace MoomooMcp.ToolErrors

open Health Trail

/-- A rejected identity token, without its value. -/
structure IdentityToken where
  field : String
  constraint : String
  actualLength : Option ℕ
  deriving DecidableEq

structure Metadata where
  field : String
  constraint : String
  minLength : ℕ
  maxLength : ℕ
  actualLength : Option ℕ
  deriving DecidableEq

def IdentityToken.metadata (e : IdentityToken) : Metadata := ⟨e.field, e.constraint, 1, 64, e.actualLength⟩

inductive Loc
  | name (field : String)
  | index (i : ℕ)
  deriving DecidableEq

/-- One fact of a validation error. The input has a length where it is a string. -/
structure Issue where
  loc : List Loc
  type : String
  typed : Option IdentityToken := none
  inputLength : Option ℕ := none
  deriving DecidableEq

structure ReadTiming where
  deadlineSeconds : ℚ
  admissionSeconds : ℚ
  quotaWaitSeconds : ℚ
  workerQueueSeconds : ℚ
  sdkSeconds : ℚ
  totalSeconds : ℚ
  sdkCallsStarted : ℕ
  sdkCallsCompleted : ℕ
  sdkInFlight : Bool
  deriving DecidableEq

/-- A denial of quotes. -/
structure QuoteDenial where
  operation : String
  checkedAt : String
  requestedCodes : List String
  deniedCodes : List String
  providerMessage : String
  deriving DecidableEq

/-- The exception classes that the tool boundary tells apart, with what it reads of
them. Of the classes it has no test for, a value error and a runtime error keep
their base, and `other` is neither. -/
inductive Kind
  | orderNotSent (admitted : Bool)
  | orderOutcomeUnknown
  | orderReceiptUnreadable
  | clientAuthorization
  | quotePermissionDenied (denial : QuoteDenial)
  | validation (title : String) (issues : List Issue)
  | identityToken (token : IdentityToken)
  | identifierSerialization
  | sdkResponse
  | tradeQuery (code operation : String)
  | executionConflict
  | executionStore
  | tradingControl
  | tradingPolicy
  | readOverload (operation : String) (pendingReads maxPendingReads : ℕ)
  | readTimeout (operation phase : String) (timing : ReadTiming)
  | rateLimit (provider operation : String) (retryAfterSeconds : ℕ)
  | connection
  | cursor
  | value
  | runtime
  | other
  deriving DecidableEq

/-- An exception, with its text. -/
structure Problem where
  kind : Kind
  message : String
  deriving DecidableEq

/-- `isinstance(problem, RuntimeError)`. -/
def Kind.isRuntime : Kind → Bool
  | .orderNotSent _ | .orderOutcomeUnknown | .orderReceiptUnreadable | .quotePermissionDenied _ | .sdkResponse
  | .tradeQuery _ _ | .executionStore | .tradingControl | .tradingPolicy | .readOverload _ _ _ | .rateLimit _ _ _
  | .runtime => true
  | _ => false

/-- A tool error with the exceptions behind it, each with its cause. They are finitely
many objects, and nothing keeps their links from coming back to an earlier one. -/
structure Failure where
  size : ℕ
  objects : Fin size → Problem
  cause : Fin size → Option (Fin size)
  first : Option (Fin size)
  message : String

def Failure.causes (f : Failure) : List Problem := (whole f.cause f.first).map f.objects

/-- `causes[0] if causes else error`. -/
def Failure.problem (f : Failure) : Problem := f.causes.head?.getD ⟨.other, f.message⟩

/-- A tool error with one exception behind it. -/
def Failure.of (p : Problem) (message : String) : Failure where
  size := 1
  objects := fun _ => p
  cause := fun _ => none
  first := some ⟨0, Nat.zero_lt_one⟩
  message := message

inductive MutationOutcome
  | notSent
  | unknown
  | acknowledged
  deriving DecidableEq, Repr

inductive ValidationPhase
  | inputValidation
  | preDispatch
  | admitted
  | dispatched
  | acknowledged
  | unknown
  deriving DecidableEq, Repr

structure Evidence where
  validationPhase : ValidationPhase
  journalRecordCreated : Option Bool := none
  journalRecordScope : String := "THIS_INVOCATION"
  identityStatus : String := "UNKNOWN"
  priorAttemptOutcome : String := "UNKNOWN"
  deriving DecidableEq

structure Diagnostic where
  path : List Loc
  type : String
  metadata : Option Metadata := none
  deriving DecidableEq

/-- What a failed read adds to a payload. -/
inductive ReadFacts
  | overloaded (pendingReads maxPendingReads : ℕ) (admissionRejected : Bool)
  | late (phase : String) (timing : ReadTiming)
  deriving DecidableEq

/-- What a denial of quotes adds to a payload. -/
structure QuoteFacts where
  requestedCodes : List String
  deniedCodes : List String
  providerMessage : String
  agentGuidance : List String
  deriving DecidableEq

structure Payload where
  errorCode : String
  tool : String
  operation : String
  checkedAt : String
  message : String
  retryable : Bool := false
  nextAction : String
  evidence : Option Evidence := none
  mutationOutcome : Option MutationOutcome := none
  validationIssues : Option (List Diagnostic) := none
  retryCondition : Option String := none
  detail : Option String := none
  provider : Option String := none
  retryAfterSeconds : Option ℕ := none
  read : Option ReadFacts := none
  underlyingSdkCancelled : Option Bool := none
  quote : Option QuoteFacts := none
  deriving DecidableEq

/-- What the server knows of the tool it answers for. -/
structure Call where
  name : String
  inputModel : String
  consequential : Bool
  readOnly : Bool
  inputValidation : Bool := false
  checkedAt : String

def queryActions : List (String × String) :=
  [("CURSOR_EXPIRED", "Restart without a cursor; snapshot time may change."),
    ("CURSOR_SCOPE", "Use the original cursor and filters, or restart."),
    ("SNAPSHOT_LIMIT", "Narrow scope and preserve coverage limits."),
    ("AMBIGUOUS_ORDER", "Inspect exact account, environment and order identity."),
    ("INVALID_IDENTIFIER", "Refetch exact IDs; do not round or reconstruct them."),
    ("INVALID_RESPONSE", "Treat data as unavailable; do not invent fields.")]

def quoteTools : List String :=
  ["get_stock_quote", "get_market_snapshot", "get_order_book", "get_historical_klines", "get_historical_klines_page",
    "get_option_chain", "get_option_expiration_date"]

def constraints : List (String × String) :=
  [("missing", "required"), ("string_type", "strict_string"), ("string_too_short", "min_length"),
    ("string_too_long", "max_length")]

def quotePermissionResult (denial : QuoteDenial) (tool : String) : Payload where
  errorCode := "QUOTE_PERMISSION_DENIED"
  message := "OpenD denied quote permission for this request."
  provider := some "Moomoo OpenD"
  tool := tool
  operation := denial.operation
  checkedAt := denial.checkedAt
  retryCondition := some "OpenAPI quote permissions or session rights change."
  nextAction := "Use another available market-data tool or web source."
  quote := some
    { requestedCodes := denial.requestedCodes
      deniedCodes := denial.deniedCodes
      providerMessage := denial.providerMessage
      agentGuidance :=
        ["Stop repeating equivalent OpenD quote requests for the denied data.",
          "Confirm the alternative source's exact instrument, exchange listing " ++
            "and currency; do not assume a ticker suffix or currency.",
          "Report the alternative source, quote timestamp/timezone and " ++
            "whether the price is delayed or stale.",
          "Label unverified quote times or freshness as unknown; do not " ++
            "present those quotes as real-time.",
          "Continue independent balance and holdings reads when they succeed; " ++
            "their costs and valuations are not verified live market quotes.",
          "If no suitable source is available, report prices as unavailable " ++
            "and continue the parts of the task that do not require them.",
          "Only explicitly named symbols appear in denied_codes; a failed " ++
            "batch does not establish that every requested symbol is denied."] }

/-- A typed rejection of a token tells its own facts; one of the schema tells the
facts of the token it is about. -/
def diagnose (issue : Issue) : Diagnostic :=
  match issue.typed with
  | some token => ⟨issue.loc, issue.type, some token.metadata⟩
  | none =>
      match issue.loc.getLast?, constraints.lookup issue.type with
      | some (.name field), some constraint =>
          if field = "operation_id" ∨ field = "admission_epoch" then
            ⟨issue.loc, issue.type, some (IdentityToken.metadata ⟨field, constraint, issue.inputLength⟩)⟩
          else ⟨issue.loc, issue.type, none⟩
      | _, _ => ⟨issue.loc, issue.type, none⟩

def validationIssues (issues : List Issue) : List Diagnostic := issues.map diagnose

def Payload.category (p : Payload) (code message action : String) : Payload :=
  { p with errorCode := code, message := message, nextAction := action }

def Payload.executionEvidence (p : Payload) (phase : ValidationPhase) (created : Option Bool) : Payload :=
  { p with evidence := some { validationPhase := phase, journalRecordCreated := created } }

/-- The fields that the issues name, each once and in their order. -/
def fieldsOf (issues : List Diagnostic) : List String := (issues.filterMap (fun d => d.metadata.map Metadata.field)).eraseDups

def inputAction (issues : List Diagnostic) (consequential : Bool) (action : String) : String :=
  if fieldsOf issues ≠ [] then
    "For a confirmed first attempt, correct " ++ ", ".intercalate (fieldsOf issues) ++
      " to 1–64 printable nonblank characters, preserving exact intent, " ++
      "account and environment; prepare and approve the corrected request " ++
      "where required. Invoke again only if valid authorization permits " ++
      "another invocation: literal submit-once authorization is not " ++
      "reusable, and approval bound to an exact operation ID cannot " ++
      "transfer to a replacement. If any prior attempt or delivery " ++
      "uncertainty exists, " ++
      "recover its original operation ID and epoch and inspect get_execution " ++
      "and broker orders; do not replace or refresh that identity. " ++
      "This invocation created no journal record; prior identity status " ++
      "remains unknown. No request was resent automatically."
  else if consequential then
    "For a confirmed first attempt, correct the schema inputs while " ++
      "preserving intent, account and environment. Invoke again only if " ++
      "valid authorization permits another invocation; literal submit-once " ++
      "authorization is not reusable and approval bound to an exact " ++
      "operation ID cannot transfer. For any prior attempt or delivery " ++
      "uncertainty, inspect the original execution and state first; retain " ++
      "its original identity. No request was resent automatically."
  else action

def Payload.inputValidationEvidence (p : Payload) (issues : List Diagnostic) (consequential : Bool) : Payload :=
  { p.executionEvidence .inputValidation (some false) with
    mutationOutcome := some .notSent
    validationIssues := some issues
    nextAction := inputAction issues consequential p.nextAction
    retryCondition := some
      ("Do not repeat the unchanged request. Correct the identified input only " ++
        "after establishing whether this was a first attempt; preserve any " ++
        "previously attempted operation's identity and resolve its outcome first.") }

def Call.payload (c : Call) : Payload where
  errorCode := "TOOL_EXECUTION_FAILED"
  tool := c.name
  operation := c.name
  checkedAt := c.checkedAt
  message := "The tool could not complete this request."
  nextAction := "Use check_health; continue independent work."

def Call.uncertainMutation (c : Call) (p : Payload) : Payload :=
  { p.executionEvidence .unknown none with
    mutationOutcome := some .unknown
    nextAction :=
      if c.name = "unlock_trade" then
        "Unlock state is uncertain. Do not repeat unlock blindly. Use " ++
          "check_health; use lock_trade when unlock access is no longer required."
      else "Do not resend; inspect the original execution and broker orders." }

/-- An order may be out there, or is. -/
def Problem.outcome (p : Problem) : Bool :=
  match p.kind with
  | .orderOutcomeUnknown | .orderReceiptUnreadable => true
  | _ => false

def Problem.refusal (p : Problem) : Bool :=
  match p.kind with
  | .orderNotSent _ => true
  | _ => false

/-- `isinstance(item, OrderReceiptUnreadableError)`. -/
def Problem.acknowledged (p : Problem) : Bool :=
  match p.kind with
  | .orderReceiptUnreadable => true
  | _ => false

def Problem.admitted (p : Problem) : Bool :=
  match p.kind with
  | .orderNotSent admitted => admitted
  | _ => false

def Problem.token (p : Problem) : Option IdentityToken :=
  match p.kind with
  | .identityToken token => some token
  | _ => none

def Call.outcomeResult (c : Call) (item : Problem) : Payload :=
  let acknowledged := item.acknowledged
  let p := c.payload.category (if acknowledged then "ORDER_RECEIPT_UNREADABLE" else "ORDER_OUTCOME_UNKNOWN")
    (sanitizeError item.message)
    ("Do not resend. Inspect get_execution for the original operation " ++
      "and get_orders/get_order in the original account and environment.")
  { p.executionEvidence (if acknowledged then .acknowledged else .dispatched) none with
    mutationOutcome := some (if acknowledged then .acknowledged else .unknown) }

/-- `{"path": [field], "type": "identity_token", **metadata}`. -/
def IdentityToken.diagnostic (token : IdentityToken) : Diagnostic :=
  ⟨[.name token.field], "identity_token", some token.metadata⟩

def Call.refusalResult (c : Call) (causes : List Problem) (item : Problem) : Payload :=
  let admitted := item.admitted
  let p := c.payload.category "ORDER_NOT_SENT" (sanitizeError item.message)
    ("This invocation sent no mutation. Inspect get_execution for any " ++
      "original operation and resolve its recorded state before further " ++
      "mutation. An admitted refusal retains immutable identity; do not " ++
      "replace its operation ID or refresh its epoch. Preserve approval, " ++
      "policy, account and environment. No request was resent automatically.")
  let p := { p.executionEvidence (if admitted then .admitted else .preDispatch) (if admitted then some true else none) with
    mutationOutcome := some .notSent
    retryCondition := some
      ("Do not repeat the unchanged refusal or infer that a replacement " ++
        "operation is allowed. Resolve the original execution and refusal " ++
        "under the same policy and approval requirements.") }
  match causes.findSome? Problem.token with
  | some token => if admitted then p else p.inputValidationEvidence [token.diagnostic] false
  | none => p

/-- The foldings that have an ASCII letter. No other letter folds to one. -/
def folded : List (Char × String) :=
  [('ß', "ss"), ('İ', "i\u0307"), ('ŉ', "\u02bcn"), ('ſ', "s"), ('\u01f0', "j\u030c"), ('\u1e96', "h\u0331"),
    ('\u1e97', "t\u0308"), ('\u1e98', "w\u030a"), ('\u1e99', "y\u030a"), ('ẚ', "a\u02be"), ('ẞ', "ss"), ('\u212a', "k"),
    ('ﬀ', "ff"), ('ﬁ', "fi"), ('ﬂ', "fl"), ('ﬃ', "ffi"), ('ﬄ', "ffl"), ('ﬅ', "st"), ('ﬆ', "st")]

/-- `str.casefold`, as far as a text of ASCII letters can be found in its result. -/
def casefold (text : String) : List Char :=
  text.toList.flatMap (fun c => ((folded.lookup c).map String.toList).getD [c.toLower])

def mentions (lowered : List Char) (text : String) : Bool := decide (text.toList <:+: lowered)

def Call.validationResult (c : Call) (title : String) (issues : List Issue) : Payload :=
  if c.inputValidation ∧ title = c.inputModel then
    Payload.inputValidationEvidence
      { c.payload.category "INVALID_ARGUMENT" "Tool arguments do not match the schema."
          "Correct arguments; preserve account and environment." with
        validationIssues := some (validationIssues issues) }
      (validationIssues issues) c.consequential
  else
    let p : Payload :=
      { c.payload.category "INVALID_RESPONSE" "The tool returned data that does not match its response schema."
          "Treat the response as unavailable; do not fabricate values." with
        validationIssues := some (validationIssues issues) }
    if c.consequential then c.uncertainMutation p else p

def Call.tokenResult (c : Call) (token : IdentityToken) : Payload :=
  (c.payload.category "INVALID_ARGUMENT" "An execution identity token violates its input contract."
    "Correct the identified input while preserving account and environment.").inputValidationEvidence
    [token.diagnostic] false

def Call.responseResult (c : Call) : Payload :=
  let p := c.payload.category "INVALID_RESPONSE" "The provider response is unusable."
    ("Treat affected data as unavailable; fetch exact identifiers again " ++ "and never reconstruct missing fields.")
  if c.consequential then c.uncertainMutation p else p

/-- What the journal could not tell leaves a mutation in doubt. -/
def Call.journalResult (c : Call) (code message action : String) : Payload :=
  let p := (c.payload.category code message action).executionEvidence .unknown none
  if c.consequential then { p with mutationOutcome := some .unknown } else p

def Call.mutationResult (c : Call) : Payload :=
  c.uncertainMutation (c.payload.category
    (if c.name = "unlock_trade" then "MUTATION_OUTCOME_UNKNOWN" else "ORDER_OUTCOME_UNKNOWN")
    "The mutation failed without a verified outcome." "Inspect the state before any further mutation.")

def Call.rateLimitResult (c : Call) (provider operation : String) (retryAfterSeconds : ℕ) : Payload :=
  let retryable := c.readOnly || quoteTools.contains c.name
  let p := c.payload.category "RATE_LIMITED" "The provider request budget is temporarily exhausted."
    (if retryable then "Wait retry_after_seconds before a bounded retry."
      else "Wait retry_after_seconds; review the state-changing request " ++ "and its authorization before any retry.")
  { p with
    retryable := retryable
    retryAfterSeconds := some retryAfterSeconds
    provider := some provider
    operation := operation }

def Call.valueResult (c : Call) (message : String) : Payload :=
  if "Deal and fee queries are supported only for REAL accounts".toList.isPrefixOf message.toList then
    c.payload.category "UNSUPPORTED_OPERATION" "This query is unavailable in the selected environment."
      "Use order queries for SIMULATE; do not switch to REAL."
  else
    -- the validation of a sensitive tool must not echo a password or a hash
    { c.payload.category "INVALID_ARGUMENT" "The tool rejected an argument or selected scope."
        "Check schema; use get_accounts in the same environment." with
      detail := if c.name ≠ "unlock_trade" then some (sanitizeError message) else none }

def Call.quoteResult (c : Call) (message : String) : Payload :=
  let lowered := casefold message
  if mentions lowered "subscription quota" &&
      ["exceeded", "insufficient", "not enough"].any (mentions lowered) then
    c.payload.category "SUBSCRIPTION_CAPACITY_EXCEEDED" "Market-data subscription capacity is exhausted."
      "Use get_subscriptions or another source; no global unsubscribe."
  else if mentions lowered "unknown stock" then
    c.payload.category "SYMBOL_UNAVAILABLE" "This provider could not resolve the requested instrument."
      "Verify exact listing and provider code, or use another source."
  else c.payload

def disconnected : List String := ["Quote context not connected", "Trade context not connected"]

def Call.connectionResult (c : Call) : Payload :=
  c.payload.category "CONNECTION_UNAVAILABLE" "The gateway connection is unavailable."
    "Use check_health; retry reads after connectivity recovers."

/-- The tests that come after the one of the connection. -/
def Call.lastResult (c : Call) (p : Problem) : Payload :=
  match p.kind with
  | .cursor =>
      c.payload.category "INVALID_CURSOR" "The cursor is invalid for this query."
        "Use the cursor unchanged with its original query, or restart without it."
  | .validation _ _ | .identityToken _ | .identifierSerialization | .executionConflict | .value => c.valueResult p.message
  | _ => if quoteTools.contains c.name then c.quoteResult p.message else c.payload

/-- What a tool that changes nothing reports. -/
def Call.readResult (c : Call) (p : Problem) : Payload :=
  match p.kind with
  | .readOverload operation pendingReads maxPendingReads =>
      { c.payload.category "READ_OVERLOADED" p.message
          ("Read capacity is full. Check health; wait for pending reads to " ++
            "complete before another bounded read attempt. Do not retry immediately.") with
        operation := operation
        read := some (.overloaded pendingReads maxPendingReads true)
        underlyingSdkCancelled := some false }
  | .readTimeout operation phase timing =>
      { c.payload.category "READ_DEADLINE_EXCEEDED" p.message
          ("Treat this read as unavailable. Check health; late SDK results are " ++
            "discarded. Do not assume that OpenD aborted the blocking call.") with
        operation := operation
        read := some (.late phase timing)
        underlyingSdkCancelled := some false }
  | .rateLimit provider operation retryAfterSeconds => c.rateLimitResult provider operation retryAfterSeconds
  | .connection => c.connectionResult
  | _ => if disconnected.contains p.message then c.connectionResult else c.lastResult p

/-- The tests of the first exception, once no order boundary has spoken. -/
def Call.categorize (c : Call) (p : Problem) : Payload :=
  match p.kind with
  | .validation title issues => c.validationResult title issues
  | .identityToken token => if c.consequential then c.mutationResult else c.tokenResult token
  | .identifierSerialization | .sdkResponse => c.responseResult
  | .tradeQuery code operation =>
      { c.payload.category code (sanitizeError p.message)
          ((queryActions.lookup code).getD "Check scope and health; failed reads do not prove order absence.") with
        operation := operation }
  | .executionConflict =>
      c.journalResult "EXECUTION_CONFLICT" "The operation conflicts with its recorded identity."
        "Use get_execution; preserve original ID, epoch and request."
  | .executionStore =>
      c.journalResult "EXECUTION_JOURNAL_BLOCKED" "Execution journal access is blocked."
        "Use check_health and recovery; do not create a new operation."
  | .tradingControl =>
      c.payload.category "TRADING_CONTROLS_BLOCKED" (sanitizeError p.message)
        "Use get_prepared_trade; preserve approval and budget guards."
  | .tradingPolicy =>
      c.payload.category "TRADING_POLICY_REFUSED" (sanitizeError p.message)
        "Use get_trading_capabilities; preserve guards and environment."
  | _ => if c.consequential then c.mutationResult else c.readResult p

/-- The text of a runtime error is shown, except to the tool that takes a password. -/
def Call.withDetail (c : Call) (p : Problem) (payload : Payload) : Payload :=
  if p.kind.isRuntime && c.name != "unlock_trade" then { payload with detail := some (sanitizeError p.message) } else payload

def Call.problemResult (c : Call) (p : Problem) : Payload :=
  match p.kind with
  | .clientAuthorization =>
      c.payload.category "CLIENT_PERMISSION_DENIED"
        "The authenticated client is not authorized for this operation or account."
        ("Use a client credential with the required grant; " ++ "preserve the requested scope.")
  | .quotePermissionDenied denial =>
      if c.consequential then c.withDetail p c.mutationResult else quotePermissionResult denial c.name
  | _ => c.withDetail p (c.categorize p)

/-- Order outcomes come before refusals, and both before what their causes say. -/
def toolErrorResult (f : Failure) (c : Call) : Payload :=
  match f.causes.find? Problem.outcome with
  | some item => c.outcomeResult item
  | none =>
      match f.causes.find? Problem.refusal with
      | some item => c.refusalResult f.causes item
      | none => c.problemResult f.problem

variable {c : Call} {p : Problem} {f : Failure}

/-- What a payload claims of the journal. -/
def Payload.created (p : Payload) : Option Bool := p.evidence.bind Evidence.journalRecordCreated

/-- A payload that says nothing of a mutation. -/
structure Plain (p : Payload) : Prop where
  outcome : p.mutationOutcome = none
  evidence : p.evidence = none

theorem plain_payload : Plain c.payload := ⟨rfl, rfl⟩

theorem plain_value (message : String) : Plain (c.valueResult message) := by
  unfold Call.valueResult
  split_ifs <;> exact ⟨rfl, rfl⟩

theorem plain_quote (message : String) : Plain (c.quoteResult message) := by
  unfold Call.quoteResult
  dsimp only
  split_ifs <;> exact ⟨rfl, rfl⟩

theorem plain_last : Plain (c.lastResult p) := by
  unfold Call.lastResult
  split
  · exact ⟨rfl, rfl⟩
  · exact plain_value _
  · exact plain_value _
  · exact plain_value _
  · exact plain_value _
  · exact plain_value _
  · split_ifs
    · exact plain_quote _
    · exact plain_payload

theorem plain_read : Plain (c.readResult p) := by
  unfold Call.readResult
  split
  · exact ⟨rfl, rfl⟩
  · exact ⟨rfl, rfl⟩
  · exact ⟨rfl, rfl⟩
  · exact ⟨rfl, rfl⟩
  · split_ifs
    · exact ⟨rfl, rfl⟩
    · exact plain_last

@[simp] theorem withDetail_outcome (payload : Payload) :
    (c.withDetail p payload).mutationOutcome = payload.mutationOutcome := by
  unfold Call.withDetail
  split_ifs <;> rfl

@[simp] theorem withDetail_created (payload : Payload) : (c.withDetail p payload).created = payload.created := by
  unfold Call.withDetail
  split_ifs <;> rfl

@[simp] theorem withDetail_retryable (payload : Payload) :
    (c.withDetail p payload).retryable = payload.retryable := by
  unfold Call.withDetail
  split_ifs <;> rfl

/-- The arguments were refused before the tool ran. -/
def Call.RejectsInput (c : Call) (p : Problem) : Prop :=
  (∃ issues, p.kind = .validation c.inputModel issues ∧ c.inputValidation = true) ∨
    c.consequential = false ∧ ∃ token, p.kind = .identityToken token

/-- What a payload tells of the mutation, where no order boundary has spoken. -/
structure Modest (c : Call) (p : Problem) (payload : Payload) : Prop where
  unsent : payload.mutationOutcome = some .notSent ↔ c.RejectsInput p
  unacknowledged : payload.mutationOutcome ≠ some .acknowledged
  unrecorded : payload.created ≠ some true

theorem Plain.modest {payload : Payload} (h : Plain payload) (hp : ¬c.RejectsInput p) : Modest c p payload := by
  refine ⟨?_, ?_, ?_⟩
  · simp [h.outcome, hp]
  · simp [h.outcome]
  · simp [Payload.created, h.evidence]

theorem uncertain_modest (payload : Payload) (hp : ¬c.RejectsInput p) : Modest c p (c.uncertainMutation payload) :=
  ⟨iff_of_false nofun hp, nofun, nofun⟩

theorem journal_modest (code message action : String) (hp : ¬c.RejectsInput p) :
    Modest c p (c.journalResult code message action) := by
  unfold Call.journalResult
  dsimp only
  split_ifs
  · exact ⟨iff_of_false nofun hp, nofun, nofun⟩
  · exact ⟨iff_of_false nofun hp, nofun, nofun⟩

theorem input_modest (payload : Payload) (issues : List Diagnostic) (consequential : Bool) (hp : c.RejectsInput p) :
    Modest c p (payload.inputValidationEvidence issues consequential) :=
  ⟨iff_of_true rfl hp, nofun, nofun⟩

theorem validation_modest {title message : String} {issues : List Issue} :
    Modest c ⟨.validation title issues, message⟩ (c.validationResult title issues) := by
  unfold Call.validationResult
  split_ifs with hinput hconsequential
  · apply input_modest
    obtain ⟨hphase, rfl⟩ := hinput
    exact .inl ⟨issues, rfl, hphase⟩
  all_goals
    have hp : ¬c.RejectsInput ⟨.validation title issues, message⟩ := by
      rintro (⟨_, hkind, hphase⟩ | ⟨_, _, hkind⟩)
      · cases hkind
        exact hinput ⟨hphase, rfl⟩
      · cases hkind
  · exact uncertain_modest _ hp
  · exact Plain.modest ⟨rfl, rfl⟩ hp

theorem token_modest {token : IdentityToken} {message : String} :
    Modest c ⟨.identityToken token, message⟩ (if c.consequential then c.mutationResult else c.tokenResult token) := by
  cases hc : c.consequential with
  | true =>
      apply uncertain_modest
      rintro (⟨_, hkind, _⟩ | ⟨hplain, _⟩)
      · cases hkind
      · rw [hc] at hplain
        cases hplain
  | false => exact input_modest _ _ _ (.inr ⟨hc, token, rfl⟩)

theorem not_rejected (hvalidation : ∀ title issues, p.kind ≠ .validation title issues)
    (htoken : ∀ token, p.kind ≠ .identityToken token) : ¬c.RejectsInput p := by
  rintro (⟨_, hkind, _⟩ | ⟨_, _, hkind⟩)
  · exact hvalidation _ _ hkind
  · exact htoken _ hkind

theorem response_modest (hp : ¬c.RejectsInput p) : Modest c p c.responseResult := by
  unfold Call.responseResult
  dsimp only
  split_ifs
  · exact uncertain_modest _ hp
  · exact Plain.modest ⟨rfl, rfl⟩ hp

theorem late_modest (hp : ¬c.RejectsInput p) : Modest c p (if c.consequential then c.mutationResult else c.readResult p) := by
  split_ifs
  · exact uncertain_modest _ hp
  · exact plain_read.modest hp

theorem categorize_modest : Modest c p (c.categorize p) := by
  rcases p with ⟨kind, message⟩
  cases kind with
  | validation title issues => exact validation_modest
  | identityToken token => exact token_modest
  | identifierSerialization | sdkResponse => exact response_modest (not_rejected nofun nofun)
  | executionConflict | executionStore => exact journal_modest _ _ _ (not_rejected nofun nofun)
  | tradeQuery | tradingControl | tradingPolicy => exact Plain.modest ⟨rfl, rfl⟩ (not_rejected nofun nofun)
  | _ => exact late_modest (not_rejected nofun nofun)

theorem Modest.withDetail {payload : Payload} (h : Modest c p payload) : Modest c p (c.withDetail p payload) :=
  ⟨(withDetail_outcome payload).symm ▸ h.unsent, (withDetail_outcome payload).symm ▸ h.unacknowledged,
    (withDetail_created payload).symm ▸ h.unrecorded⟩

theorem problem_modest : Modest c p (c.problemResult p) := by
  rcases p with ⟨kind, message⟩
  cases kind with
  | clientAuthorization => exact Plain.modest ⟨rfl, rfl⟩ (not_rejected nofun nofun)
  | quotePermissionDenied denial =>
      change Modest c _ (if c.consequential then c.withDetail _ c.mutationResult else _)
      split_ifs
      · exact (uncertain_modest _ (not_rejected (by simp) (by simp))).withDetail
      · exact Plain.modest ⟨rfl, rfl⟩ (not_rejected nofun nofun)
  | _ => exact categorize_modest.withDetail

/-- The provider's budget is used up, and the call may be made again once it is not. -/
def Call.MayRetry (c : Call) (p : Problem) : Prop :=
  c.consequential = false ∧ (∃ provider operation seconds, p.kind = .rateLimit provider operation seconds) ∧
    (c.readOnly || quoteTools.contains c.name) = true

theorem value_retryable (message : String) : (c.valueResult message).retryable = false := by
  unfold Call.valueResult
  split_ifs <;> rfl

theorem quote_retryable (message : String) : (c.quoteResult message).retryable = false := by
  unfold Call.quoteResult
  dsimp only
  split_ifs <;> rfl

theorem last_retryable : (c.lastResult p).retryable = false := by
  unfold Call.lastResult
  split
  · rfl
  · exact value_retryable _
  · exact value_retryable _
  · exact value_retryable _
  · exact value_retryable _
  · exact value_retryable _
  · split_ifs
    · exact quote_retryable _
    · rfl

theorem read_retryable : (c.readResult p).retryable = true ↔
    (∃ provider operation seconds, p.kind = .rateLimit provider operation seconds) ∧
      (c.readOnly || quoteTools.contains c.name) = true := by
  rcases p with ⟨kind, message⟩
  have hlast : ∀ kind, (if disconnected.contains message then c.connectionResult
      else c.lastResult ⟨kind, message⟩).retryable = false := by
    intro kind
    split_ifs
    · rfl
    · exact last_retryable
  cases kind with
  | rateLimit provider operation seconds =>
      exact ⟨fun h => ⟨⟨provider, operation, seconds, rfl⟩, h⟩, fun h => h.2⟩
  | readOverload | readTimeout | connection => exact iff_of_false (by simp [Call.readResult, Call.payload,
      Payload.category, Call.connectionResult]) (by simp)
  | _ => exact iff_of_false (by simp only [Call.readResult, hlast, Bool.false_eq_true, not_false_eq_true]) (by simp)

theorem journal_retryable (code message action : String) : (c.journalResult code message action).retryable = false := by
  unfold Call.journalResult
  dsimp only
  split_ifs <;> rfl

theorem categorize_retryable : (c.categorize p).retryable = true ↔ c.MayRetry p := by
  rcases p with ⟨kind, message⟩
  have hnot : ∀ {payload : Payload}, payload.retryable = false →
      (∀ provider operation seconds, kind ≠ .rateLimit provider operation seconds) →
      (payload.retryable = true ↔ c.MayRetry ⟨kind, message⟩) := by
    intro payload hpayload hkind
    refine iff_of_false (by simp [hpayload]) ?_
    rintro ⟨_, ⟨_, _, _, h⟩, _⟩
    exact hkind _ _ _ h
  have hlate : (if c.consequential then c.mutationResult else c.readResult ⟨kind, message⟩).retryable = true ↔
      c.MayRetry ⟨kind, message⟩ := by
    cases hc : c.consequential with
    | true => exact iff_of_false nofun (fun h => by cases hc.symm.trans h.1)
    | false =>
        rw [if_neg nofun, read_retryable]
        exact ⟨fun h => ⟨hc, h⟩, fun h => h.2⟩
  cases kind with
  | validation title issues =>
      apply hnot
      · unfold Call.categorize Call.validationResult
        dsimp only
        split_ifs <;> rfl
      · simp
  | identityToken token =>
      apply hnot
      · unfold Call.categorize
        dsimp only
        split_ifs <;> rfl
      · simp
  | identifierSerialization | sdkResponse =>
      apply hnot
      · unfold Call.categorize Call.responseResult
        dsimp only
        split_ifs <;> rfl
      · simp
  | executionConflict | executionStore => exact hnot (journal_retryable _ _ _) (by simp)
  | tradeQuery | tradingControl | tradingPolicy => exact hnot rfl (by simp)
  | _ => exact hlate

theorem problem_retryable : (c.problemResult p).retryable = true ↔ c.MayRetry p := by
  rcases p with ⟨kind, message⟩
  cases kind with
  | clientAuthorization =>
      refine iff_of_false nofun ?_
      rintro ⟨_, ⟨_, _, _, h⟩, _⟩
      cases h
  | quotePermissionDenied denial =>
      refine iff_of_false ?_ ?_
      · change ¬(if c.consequential then c.withDetail _ c.mutationResult else quotePermissionResult denial c.name).retryable = true
        split_ifs
        · rw [withDetail_retryable]
          nofun
        · nofun
      · rintro ⟨_, ⟨_, _, _, h⟩, _⟩
        cases h
  | _ => exact (iff_of_eq (congrArg (· = true) (withDetail_retryable _))).trans categorize_retryable

/-- The text that a payload shows of a failure is the sanitized one, and none for the
tool that takes a password. -/
def Guarded (c : Call) (message : String) (payload : Payload) : Prop :=
  ∀ d, payload.detail = some d → c.name ≠ "unlock_trade" ∧ d = sanitizeError message

theorem guarded_of_none {message : String} {payload : Payload} (h : payload.detail = none) : Guarded c message payload := by
  intro d hd
  rw [h] at hd
  cases hd

theorem value_guarded (message : String) : Guarded c message (c.valueResult message) := by
  unfold Call.valueResult
  split_ifs with hprefix hname
  · exact guarded_of_none rfl
  · intro d hd
    exact ⟨hname, (Option.some.inj hd).symm⟩
  · exact guarded_of_none rfl

theorem quote_guarded (message : String) : Guarded c message (c.quoteResult message) := by
  unfold Call.quoteResult
  dsimp only
  split_ifs <;> exact guarded_of_none rfl

theorem last_guarded : Guarded c p.message (c.lastResult p) := by
  unfold Call.lastResult
  split
  · exact guarded_of_none rfl
  · exact value_guarded _
  · exact value_guarded _
  · exact value_guarded _
  · exact value_guarded _
  · exact value_guarded _
  · split_ifs
    · exact quote_guarded _
    · exact guarded_of_none rfl

theorem read_guarded : Guarded c p.message (c.readResult p) := by
  unfold Call.readResult
  split
  · exact guarded_of_none rfl
  · exact guarded_of_none rfl
  · exact guarded_of_none rfl
  · exact guarded_of_none rfl
  · split_ifs
    · exact guarded_of_none rfl
    · exact last_guarded

theorem categorize_guarded : Guarded c p.message (c.categorize p) := by
  rcases p with ⟨kind, message⟩
  have hlate : Guarded c message (if c.consequential then c.mutationResult else c.readResult ⟨kind, message⟩) := by
    split_ifs
    · exact guarded_of_none rfl
    · exact read_guarded
  cases kind with
  | validation title issues =>
      unfold Call.categorize Call.validationResult
      dsimp only
      split_ifs <;> exact guarded_of_none rfl
  | identityToken token =>
      unfold Call.categorize
      dsimp only
      split_ifs <;> exact guarded_of_none rfl
  | identifierSerialization | sdkResponse =>
      unfold Call.categorize Call.responseResult
      dsimp only
      split_ifs <;> exact guarded_of_none rfl
  | executionConflict | executionStore =>
      unfold Call.categorize Call.journalResult
      dsimp only
      split_ifs <;> exact guarded_of_none rfl
  | tradeQuery | tradingControl | tradingPolicy => exact guarded_of_none rfl
  | _ => exact hlate

theorem Guarded.withDetail {payload : Payload} (h : Guarded c p.message payload) :
    Guarded c p.message (c.withDetail p payload) := by
  unfold Call.withDetail
  split_ifs with hshown
  · intro d hd
    obtain ⟨_, hname⟩ := Bool.and_eq_true_iff.mp hshown
    exact ⟨by simpa using hname, (Option.some.inj hd).symm⟩
  · exact h

theorem problem_guarded : Guarded c p.message (c.problemResult p) := by
  rcases p with ⟨kind, message⟩
  cases kind with
  | clientAuthorization => exact guarded_of_none rfl
  | quotePermissionDenied denial =>
      change Guarded c message (if c.consequential then c.withDetail _ c.mutationResult else _)
      split_ifs
      · exact Guarded.withDetail (p := ⟨.quotePermissionDenied denial, message⟩) (guarded_of_none rfl)
      · exact guarded_of_none rfl
  | _ => exact Guarded.withDetail (p := ⟨_, message⟩) categorize_guarded

/-- The exception that is so many causes behind the tool error. -/
def Failure.behind (f : Failure) (k : ℕ) : Option Problem := (station f.cause f.first k).map f.objects

/-- The nearest exception of some sort behind the tool error. -/
def Failure.Nearest (f : Failure) (q : Problem → Bool) (item : Problem) : Prop :=
  ∃ k, f.behind k = some item ∧ q item = true ∧ ∀ j < k, ∀ x, f.behind j = some x → q x = false

theorem mem_causes : p ∈ f.causes ↔ ∃ k, f.behind k = some p := by
  unfold Failure.causes Failure.behind
  simp only [List.mem_map, mem_whole, Option.map_eq_some_iff]
  constructor
  · rintro ⟨i, ⟨k, hk⟩, rfl⟩
    exact ⟨k, i, hk, rfl⟩
  · rintro ⟨k, i, hk, rfl⟩
    exact ⟨i, ⟨k, hk⟩, rfl⟩

theorem behind_of_causes {k : ℕ} (h : f.causes[k]? = some p) : f.behind k = some p := by
  unfold Failure.causes at h
  rw [List.getElem?_map, Option.map_eq_some_iff] at h
  obtain ⟨i, hi, rfl⟩ := h
  rw [Failure.behind, station_of_getElem? hi]
  rfl

theorem Failure.Nearest.unique {q : Problem → Bool} {x y : Problem} (hx : f.Nearest q x) (hy : f.Nearest q y) : x = y := by
  obtain ⟨j, hj, hqx, hbeforeX⟩ := hx
  obtain ⟨k, hk, hqy, hbeforeY⟩ := hy
  rcases lt_trichotomy j k with hlt | rfl | hlt
  · rw [hbeforeY j hlt x hj] at hqx
    cases hqx
  · exact Option.some.inj (hj.symm.trans hk)
  · rw [hbeforeX k hlt y hk] at hqy
    cases hqy

theorem nearest_of_find? {q : Problem → Bool} {item : Problem} (h : f.causes.find? q = some item) : f.Nearest q item := by
  obtain ⟨hq, before, after, hsplit, hbefore⟩ := List.find?_eq_some_iff_append.mp h
  refine ⟨before.length, behind_of_causes (by rw [hsplit]; simp), hq, fun j hj x hx => ?_⟩
  have hget : f.causes[j]? = some before[j] := by
    rw [hsplit, List.getElem?_append_left hj, List.getElem?_eq_getElem hj]
  rw [behind_of_causes hget] at hx
  cases hx
  simpa using hbefore _ (List.getElem_mem hj)

theorem find?_causes {q : Problem → Bool} {item : Problem} : f.causes.find? q = some item ↔ f.Nearest q item := by
  refine ⟨nearest_of_find?, fun h => ?_⟩
  have hfound : (f.causes.find? q).isSome := by
    obtain ⟨k, hk, hq, _⟩ := h
    exact List.find?_isSome.mpr ⟨item, mem_causes.mpr ⟨k, hk⟩, hq⟩
  obtain ⟨x, hx⟩ := Option.isSome_iff_exists.mp hfound
  rw [hx, (nearest_of_find? hx).unique h]

theorem find?_causes_none {q : Problem → Bool} : f.causes.find? q = none ↔ ∀ k x, f.behind k = some x → q x = false := by
  rw [List.find?_eq_none]
  constructor
  · intro h k x hk
    simpa using h x (mem_causes.mpr ⟨k, hk⟩)
  · intro h x hx
    obtain ⟨k, hk⟩ := mem_causes.mp hx
    simp [h k x hk]

theorem behind_of {message : String} {k : ℕ} {x : Problem} (h : (Failure.of p message).behind k = some x) : x = p := by
  obtain ⟨i, _, rfl⟩ := Option.map_eq_some_iff.mp h
  rfl

theorem problem_behind : f.problem = (f.behind 0).getD ⟨.other, f.message⟩ := by
  unfold Failure.problem Failure.causes Failure.behind
  rw [List.head?_map, whole_head]
  rfl

theorem outcome_result {item : Problem} (h : item.outcome = true) :
    (c.outcomeResult item).mutationOutcome ≠ some .notSent ∧
      ((c.outcomeResult item).mutationOutcome = some .acknowledged ↔ item.kind = .orderReceiptUnreadable) ∧
      (c.outcomeResult item).created ≠ some true ∧ (c.outcomeResult item).retryable = false ∧
      (c.outcomeResult item).detail = none := by
  rcases item with ⟨kind, message⟩
  cases kind <;> cases h
  · exact ⟨nofun, iff_of_false nofun nofun, nofun, rfl, rfl⟩
  · exact ⟨nofun, iff_of_true rfl rfl, nofun, rfl, rfl⟩

theorem refusal_result {causes : List Problem} {item : Problem} (h : item.refusal = true) :
    (c.refusalResult causes item).mutationOutcome = some .notSent ∧
      ((c.refusalResult causes item).created = some true ↔ item.kind = .orderNotSent true) ∧
      (c.refusalResult causes item).retryable = false ∧ (c.refusalResult causes item).detail = none := by
  rcases item with ⟨kind, message⟩
  cases kind <;> cases h
  rename_i admitted
  unfold Call.refusalResult
  cases admitted with
  | true => cases causes.findSome? Problem.token <;> exact ⟨rfl, iff_of_true rfl rfl, rfl, rfl⟩
  | false => cases causes.findSome? Problem.token <;> exact ⟨rfl, iff_of_false nofun nofun, rfl, rfl⟩

/-- What a payload says, and what it has to say it on. -/
structure Verdict (f : Failure) (c : Call) (payload : Payload) : Prop where
  sent : payload.mutationOutcome = some .notSent ↔
    (∀ k x, f.behind k = some x → x.outcome = false) ∧
      ((∃ k x, f.behind k = some x ∧ x.refusal = true) ∨ c.RejectsInput f.problem)
  acknowledged : payload.mutationOutcome = some .acknowledged ↔
    ∃ item, f.Nearest Problem.outcome item ∧ item.kind = .orderReceiptUnreadable
  created : payload.created = some true ↔
    (∀ k x, f.behind k = some x → x.outcome = false) ∧ ∃ item, f.Nearest Problem.refusal item ∧ item.kind = .orderNotSent true
  retryable : payload.retryable = true ↔
    (∀ k x, f.behind k = some x → x.outcome = false ∧ x.refusal = false) ∧ c.MayRetry f.problem
  guarded : Guarded c f.problem.message payload

theorem toolErrorResult_verdict (f : Failure) (c : Call) : Verdict f c (toolErrorResult f c) := by
  unfold toolErrorResult
  cases houtcome : f.causes.find? Problem.outcome with
  | some item =>
      have hnearest := find?_causes.mp houtcome
      obtain ⟨k, hk, hitem, _⟩ := id hnearest
      obtain ⟨hsent, hacknowledged, hcreated, hretryable, hdetail⟩ := outcome_result (c := c) hitem
      have hknown : ¬∀ k x, f.behind k = some x → x.outcome = false := by
        intro h
        rw [h k item hk] at hitem
        cases hitem
      refine ⟨iff_of_false hsent (fun h => hknown h.1), ?_, iff_of_false hcreated (fun h => hknown h.1), ?_,
        guarded_of_none hdetail⟩
      · rw [hacknowledged]
        refine ⟨fun h => ⟨item, hnearest, h⟩, ?_⟩
        rintro ⟨item', h, hkind⟩
        rwa [hnearest.unique h]
      · exact iff_of_false (by simp [hretryable]) (fun h => hknown (fun k x hx => (h.1 k x hx).1))
  | none =>
      have hunknown := find?_causes_none.mp houtcome
      have hunread : ¬∃ item, f.Nearest Problem.outcome item ∧ item.kind = .orderReceiptUnreadable := by
        rintro ⟨item, ⟨k, hk, hitem, _⟩, _⟩
        rw [hunknown k item hk] at hitem
        cases hitem
      dsimp only
      cases hrefusal : f.causes.find? Problem.refusal with
      | some item =>
          have hnearest := find?_causes.mp hrefusal
          obtain ⟨k, hk, hitem, _⟩ := id hnearest
          obtain ⟨hsent, hcreated, hretryable, hdetail⟩ := @refusal_result c f.causes _ hitem
          refine ⟨iff_of_true hsent ⟨hunknown, .inl ⟨k, item, hk, hitem⟩⟩, iff_of_false (by simp [hsent]) hunread, ?_, ?_,
            guarded_of_none hdetail⟩
          · rw [hcreated]
            refine ⟨fun h => ⟨hunknown, item, hnearest, h⟩, ?_⟩
            rintro ⟨_, item', h, hkind⟩
            rwa [hnearest.unique h]
          · refine iff_of_false (by simp [hretryable]) (fun h => ?_)
            rw [(h.1 k item hk).2] at hitem
            cases hitem
      | none =>
          have hunrefused := find?_causes_none.mp hrefusal
          have hmodest := problem_modest (c := c) (p := f.problem)
          refine ⟨?_, iff_of_false hmodest.unacknowledged hunread, iff_of_false hmodest.unrecorded ?_, ?_, problem_guarded⟩
          · rw [hmodest.unsent]
            refine ⟨fun h => ⟨hunknown, .inr h⟩, ?_⟩
            rintro ⟨_, ⟨k, x, hx, hrefused⟩ | h⟩
            · rw [hunrefused k x hx] at hrefused
              cases hrefused
            · exact h
          · rintro ⟨_, item, ⟨k, hk, hitem, _⟩, _⟩
            rw [hunrefused k item hk] at hitem
            cases hitem
          · rw [problem_retryable]
            exact ⟨fun h => ⟨fun k x hx => ⟨hunknown k x hx, hunrefused k x hx⟩, h⟩, fun h => h.2⟩

/-- The classes whose text a payload repeats as its message. -/
def Kind.told : Kind → Bool
  | .orderNotSent _ | .orderOutcomeUnknown | .orderReceiptUnreadable | .tradeQuery _ _ | .tradingControl
  | .tradingPolicy => true
  | _ => false

theorem untold_sort (h : p.kind.told = false) : p.outcome = false ∧ p.refusal = false := by
  rcases p with ⟨kind, message⟩
  cases kind <;> cases h <;> exact ⟨rfl, rfl⟩

theorem untold_result (h : ∀ k x, f.behind k = some x → x.kind.told = false) :
    toolErrorResult f c = c.problemResult f.problem := by
  have houtcome : f.causes.find? Problem.outcome = none :=
    find?_causes_none.mpr fun k x hx => (untold_sort (h k x hx)).1
  have hrefusal : f.causes.find? Problem.refusal = none :=
    find?_causes_none.mpr fun k x hx => (untold_sort (h k x hx)).2
  simp only [toolErrorResult, houtcome, hrefusal]

theorem unlock_untold {message message' : String} {kind : Kind} (hname : c.name = "unlock_trade")
    (hc : c.consequential = true) (hkind : kind.told = false) :
    c.problemResult ⟨kind, message⟩ = c.problemResult ⟨kind, message'⟩ := by
  have hdetail : ∀ (m : String) (payload : Payload), c.withDetail ⟨kind, m⟩ payload = payload := by
    intro m payload
    simp [Call.withDetail, hname]
  cases kind with
  | clientAuthorization => rfl
  | quotePermissionDenied denial =>
      change (if c.consequential then c.withDetail _ c.mutationResult else _) = if c.consequential then _ else _
      rw [if_pos hc, if_pos hc, hdetail, hdetail]
  | orderNotSent | orderOutcomeUnknown | orderReceiptUnreadable | tradeQuery | tradingControl | tradingPolicy => cases hkind
  | validation | identityToken | identifierSerialization | sdkResponse | executionConflict | executionStore =>
      exact (hdetail _ _).trans (hdetail _ _).symm
  | _ =>
      change c.withDetail _ (if c.consequential then c.mutationResult else _) =
        c.withDetail _ (if c.consequential then c.mutationResult else _)
      rw [hdetail, hdetail, if_pos hc, if_pos hc]

/-- A value error of the tool, as the framework raises it. -/
def rejected (text : String) : Failure := .of ⟨.value, text⟩ ("Error executing tool unlock_trade: " ++ text)

end MoomooMcp.ToolErrors
