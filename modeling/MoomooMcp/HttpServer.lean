import MoomooMcp.AgentServer
import MoomooMcp.Settings

namespace MoomooMcp.HttpServer

open Intent OrderRules ClientAuthorization AgentServer Settings

/-- An HTTP request, with the tool call that its body holds. `secure` is whether the
transport security lets its host and origin pass, `allowed` whether the router knows its
method. -/
structure HttpRequest where
  authorization : List String
  path : String
  secure : Bool
  allowed : Bool
  name : String
  arguments : Arguments
  checkedAt : String

/-- Bearer token authorization of HTTP requests. -/
structure BearerAuth where
  authToken : String
  operatorToken : String
  restrictedAuthToken : String
  restrictedGrants : ClientGrants

structure App where
  auth : Option BearerAuth
  operatorRoutes : Bool

def ascii (text : String) : Bool := text.toList.all (fun c => decide (c.toNat < 128))

/-- The token of a single Authorization header. -/
def bearer (r : HttpRequest) : Option String :=
  match r.authorization with
  | [header] =>
      if "Bearer ".toList.isPrefixOf header.toList && ascii header then some (trim (String.ofList (header.toList.drop 7)))
      else none
  | _ => none

def operatorRoute (path : String) : Bool := "/operator/".toList.isPrefixOf path.toList

/-- `expected and hmac.compare_digest(token, expected)`, which compares ASCII texts alone. -/
def compareDigest (token expected : String) : Except Exc Bool :=
  if expected = "" then .ok false
  else if ascii token && ascii expected then .ok (token == expected)
  else .error ⟨.type, "comparing strings with non-ASCII characters is not supported", false⟩

/-- The grants that a request is passed on under, if it is. -/
def BearerAuth.dispatch (m : BearerAuth) (r : HttpRequest) : Except Exc (Option Grants) :=
  match bearer r with
  | none => .ok none
  | some token => do
      let full ← compareDigest token (if operatorRoute r.path then m.operatorToken else m.authToken)
      if full then return some none
      else if operatorRoute r.path then return none
      else
        let restricted ← compareDigest token m.restrictedAuthToken
        return if restricted then some (some m.restrictedGrants) else none

def App.dispatch (app : App) (r : HttpRequest) : Except Exc (Option Grants) :=
  match app.auth with
  | none => .ok (some none)
  | some m => m.dispatch r

/-- The grants of a restricted credential without any of its own. -/
def defaultGrants : ClientGrants where
  permissions := defaultRestrictedPermissions
  realAccIds := none
  simulateAccIds := none
  real_positive := ids_positive none
  simulate_positive := ids_positive none

/-- `create_streamable_http_app`. -/
def createStreamableHttpApp (host : Host) (authToken operatorAuthToken operatorId restrictedAuthToken : String)
    (restrictedGrants : Grants) : Except Exc App := do
  let token := trim authToken
  check (restrictedAuthToken = "" || (token ≠ "" && restrictedAuthToken ≠ token && restrictedAuthToken ≠ operatorAuthToken &&
      host.credential restrictedAuthToken))
    "Restricted client authentication requires a distinct ASCII credential"
  check (operatorAuthToken = "" || (token ≠ "" && operatorAuthToken ≠ token && trim operatorId ≠ "" &&
      host.credential operatorAuthToken && operatorId.length ≤ 128 && operatorId.toList.all host.isPrintable))
    "Operator approvals require distinct authenticated credentials and identity"
  return ⟨if token = "" then none
    else some ⟨token, operatorAuthToken, restrictedAuthToken, restrictedGrants.getD defaultGrants⟩, operatorAuthToken ≠ ""⟩

/-- The application that `main` serves. -/
def appOf (host : Host) (s : Settings) : Except Exc App :=
  createStreamableHttpApp host s.authToken s.operatorAuthToken s.operatorId s.restrictedAuthToken s.restrictedGrants

variable {σ ρ : Type}

/-- The two operator routes, of which each takes one more segment. -/
def operatorPaths : List String := ["/operator/approvals/", "/operator/execution/"]

def operatorPath (path : String) : Bool :=
  operatorPaths.any (fun base =>
    let segment := path.toList.drop base.length
    base.toList.isPrefixOf path.toList && !segment.isEmpty && !segment.contains '/')

inductive HttpResponse (ρ : Type)
  | unauthorized
  | notFound
  | insecure
  | raised (e : Exc)
  | operated
  | answered (response : Response ρ)

def HttpRequest.call (r : HttpRequest) (grants : Grants) : AgentServer.Request := ⟨grants, r.name, r.arguments, r.checkedAt⟩

/-- What a request that is passed on reaches. `operate` is the work of the operator routes. -/
def route (app : App) (server : Server σ ρ) (operate : HttpRequest → σ → σ) (r : HttpRequest) (grants : Grants) (s : σ) :
    HttpResponse ρ × σ :=
  if (app.operatorRoutes && operatorPath r.path && r.allowed) = true then
    if r.secure then (.operated, operate r s) else (.insecure, s)
  else if r.path = "/mcp" ∧ r.allowed = true then
    if r.secure then
      let (response, s') := callToolWithErrors server (r.call grants) s
      (.answered response, s')
    else (.insecure, s)
  else (.notFound, s)

def handle (app : App) (server : Server σ ρ) (operate : HttpRequest → σ → σ) (r : HttpRequest) (s : σ) : HttpResponse ρ × σ :=
  match app.dispatch r with
  | .error e => (.raised e, s)
  | .ok none => (.unauthorized, s)
  | .ok (some grants) => route app server operate r grants s

def serveHttp (app : App) (server : Server σ ρ) (operate : HttpRequest → σ → σ) (requests : List HttpRequest) (s : σ) : σ :=
  requests.foldl (fun s r => (handle app server operate r s).2) s

/-- Whether a request that is passed on does anything. -/
def reaches (app : App) (server : Server σ ρ) (r : HttpRequest) (grants : Grants) : Bool :=
  r.secure && r.allowed &&
    ((app.operatorRoutes && operatorPath r.path) || (decide (r.path = "/mcp") && runs server (r.call grants)))

def effective (app : App) (server : Server σ ρ) (r : HttpRequest) : Bool :=
  match app.dispatch r with
  | .ok (some grants) => reaches app server r grants
  | _ => false

variable {app : App} {server : Server σ ρ} {operate : HttpRequest → σ → σ} {r : HttpRequest} {grants : Grants}

theorem compareDigest_true {token expected : String} (h : compareDigest token expected = .ok true) :
    expected ≠ "" ∧ token = expected := by
  rw [compareDigest] at h
  split_ifs at h with hempty hascii
  · cases h
  · exact ⟨hempty, beq_iff_eq.mp (Except.ok.inj h)⟩

/-- A credential that is passed on: the operator's on its routes alone, that of the full
policy and that of the restricted client elsewhere. -/
theorem dispatch_some {m : BearerAuth} (h : m.dispatch r = .ok (some grants)) :
    (operatorRoute r.path = true ∧ grants = none ∧ m.operatorToken ≠ "" ∧ bearer r = some m.operatorToken) ∨
      (operatorRoute r.path = false ∧ grants = none ∧ m.authToken ≠ "" ∧ bearer r = some m.authToken) ∨
      (operatorRoute r.path = false ∧ grants = some m.restrictedGrants ∧ m.restrictedAuthToken ≠ "" ∧
        bearer r = some m.restrictedAuthToken) := by
  rw [BearerAuth.dispatch] at h
  cases hbearer : bearer r with
  | none =>
      rw [hbearer] at h
      cases h
  | some token =>
      rw [hbearer] at h
      obtain ⟨full, hfull, h⟩ := Checks.bind_ok.mp h
      cases hroute : operatorRoute r.path with
      | false =>
          simp only [hroute, Bool.false_eq_true, if_false] at hfull h
          split_ifs at h with hyes
          · cases h
            obtain ⟨hne, rfl⟩ := compareDigest_true (hyes ▸ hfull)
            exact .inr (.inl ⟨rfl, rfl, hne, rfl⟩)
          · obtain ⟨restricted, hrestricted, h⟩ := Checks.bind_ok.mp h
            split_ifs at h with hyes'
            · cases h
              obtain ⟨hne, rfl⟩ := compareDigest_true (hyes' ▸ hrestricted)
              exact .inr (.inr ⟨rfl, rfl, hne, rfl⟩)
            · cases h
      | true =>
          simp only [hroute, if_true] at hfull h
          split_ifs at h with hyes
          · cases h
            obtain ⟨hne, rfl⟩ := compareDigest_true (hyes ▸ hfull)
            exact .inl ⟨rfl, rfl, hne, rfl⟩
          · cases h

theorem operatorRoute_of_path (h : operatorPath r.path = true) : operatorRoute r.path = true := by
  obtain ⟨base, hbase, h⟩ := List.any_eq_true.mp h
  simp only [Bool.and_eq_true] at h
  have hstarts : ∀ base ∈ operatorPaths, "/operator/".toList.isPrefixOf base.toList = true := by decide
  rw [operatorRoute, List.isPrefixOf_iff_prefix]
  exact (List.isPrefixOf_iff_prefix.mp (hstarts base hbase)).trans (List.isPrefixOf_iff_prefix.mp h.1.1)

theorem route_idle (h : reaches app server r grants = false) (s : σ) : (route app server operate r grants s).2 = s := by
  rw [route]
  split_ifs with hoperator hsecure hmcp hsecure'
  · simp only [Bool.and_eq_true] at hoperator
    simp [reaches, hsecure, hoperator] at h
  · rfl
  · have hruns : runs server (r.call grants) = false := by
      by_contra hruns
      simp [reaches, hsecure', hmcp, hruns] at h
    exact call_of_not_runs hruns s
  · rfl
  · rfl

theorem handle_idle (h : effective app server r = false) (s : σ) : (handle app server operate r s).2 = s := by
  rw [handle]
  rw [effective] at h
  split
  · rfl
  · rfl
  · next grants hgrants =>
      rw [hgrants] at h
      exact route_idle h s

theorem serveHttp_effective (requests : List HttpRequest) (s : σ) :
    serveHttp app server operate requests s = serveHttp app server operate (requests.filter (effective app server)) s := by
  induction requests generalizing s with
  | nil => rfl
  | cons r requests ih =>
      cases heffective : effective app server r with
      | true =>
          rw [List.filter_cons_of_pos heffective]
          exact ih _
      | false =>
          rw [List.filter_cons_of_neg (by simp [heffective]), ← ih s]
          exact congrArg (serveHttp app server operate requests) (handle_idle heffective s)

variable {host : Host} {env : Environ} {settings : Settings}

/-- What `main` was given to serve is what the application is built to serve. -/
theorem appOf_start (h : start host env = .ok settings) : ∃ app, appOf host settings = .ok app ∧
    app.operatorRoutes = (settings.operatorAuthToken ≠ "" : Bool) ∧
    app.auth = if settings.authToken = "" then none
      else some ⟨settings.authToken, settings.operatorAuthToken, settings.restrictedAuthToken,
        settings.restrictedGrants.getD defaultGrants⟩ := by
  obtain ⟨hs, -⟩ := start_ok h
  have hauth : trim settings.authToken = settings.authToken := by rw [hs.stripped.1, Environ.text, trim_trim]
  have hid : trim settings.operatorId = settings.operatorId := by rw [hs.stripped.2, Environ.text, trim_trim]
  refine ⟨_, check_bind_ok.mpr ⟨?_, check_bind_ok.mpr ⟨?_, rfl⟩⟩, rfl, ?_⟩
  · by_cases hnone : settings.restrictedAuthToken = ""
    · simp [hnone]
    · have hrestricted := hs.restricted hnone
      simp [hauth, hrestricted.authenticated, hrestricted.distinct, hrestricted.credential]
  · by_cases hnone : settings.operatorAuthToken = ""
    · simp [hnone]
    · have hoperator := hs.operator hnone
      simp [hauth, hid, hoperator.authenticated, hoperator.distinct, hoperator.credential, hoperator.named]
  · rw [hauth]

theorem effective_cases (h : effective app server r = true) :
    ∃ grants, app.dispatch r = .ok (some grants) ∧ reaches app server r grants = true := by
  rw [effective] at h
  split at h
  · next grants hgrants => exact ⟨grants, hgrants, h⟩
  · cases h

/-- Off the operator routes only a call that runs its tool reaches anything. -/
theorem runs_of_reaches (h : reaches app server r grants = true) (hroute : operatorRoute r.path = false ∨ app.operatorRoutes = false) :
    r.path = "/mcp" ∧ runs server (r.call grants) = true := by
  have hoperator : (app.operatorRoutes && operatorPath r.path) = false := by
    rcases hroute with hroute | hroutes
    · cases hpath : operatorPath r.path with
      | false => exact Bool.and_false _
      | true =>
          rw [operatorRoute_of_path hpath] at hroute
          cases hroute
    · rw [hroutes, Bool.false_and]
  rw [reaches, hoperator, Bool.false_or] at h
  simp only [Bool.and_eq_true, decide_eq_true_eq] at h
  exact h.2

/-- What a request that does anything has to carry. -/
structure Confined (settings : Settings) (server : Server σ ρ) (r : HttpRequest) : Prop where
  operator : operatorRoute r.path = true → settings.operatorAuthToken ≠ "" ∧ bearer r = some settings.operatorAuthToken
  operatorOnly : settings.operatorAuthToken ≠ "" → bearer r = some settings.operatorAuthToken → operatorRoute r.path = true
  restricted : settings.restrictedAuthToken ≠ "" → bearer r = some settings.restrictedAuthToken →
    ∃ g tool, settings.restrictedGrants = some g ∧ server r.name = some tool ∧ tool.validate r.arguments = none ∧
      Granted g r.name r.arguments tool.defaultEnvironment
  anonymous : (∀ token ∈ [settings.authToken, settings.operatorAuthToken, settings.restrictedAuthToken], bearer r ≠ some token) →
    settings.authToken = "" ∧ settings.policy.mode = .readOnly ∧ operatorRoute r.path = false

theorem confined_open (h : FailsClosed host env settings) (hnone : settings.authToken = "") (hroutes : app.operatorRoutes = false)
    (hreaches : reaches app server r grants = true) : Confined settings server r := by
  obtain ⟨-, hmode, hoperator, hrestricted⟩ := h.unauthenticated hnone
  have hroute : operatorRoute r.path = false := by
    rw [(runs_of_reaches hreaches (.inr hroutes)).1]
    decide
  refine ⟨fun hyes => ?_, fun hne => absurd hoperator hne, fun hne => absurd hrestricted hne, fun _ => ⟨hnone, hmode, hroute⟩⟩
  rw [hroute] at hyes
  cases hyes

theorem confined_bearer {m : BearerAuth} (h : Loaded host env settings)
    (hm : m = ⟨settings.authToken, settings.operatorAuthToken, settings.restrictedAuthToken,
      settings.restrictedGrants.getD defaultGrants⟩)
    (hdispatch : m.dispatch r = .ok (some grants)) (hreaches : reaches app server r grants = true) : Confined settings server r := by
  subst hm
  have hsame : ∀ {token token'}, bearer r = some token → bearer r = some token' → token = token' :=
    fun h h' => Option.some.inj (h.symm.trans h')
  rcases dispatch_some hdispatch with ⟨hroute, -, hne, hbearer⟩ | ⟨hroute, -, hne, hbearer⟩ | ⟨hroute, hgrants, hne, hbearer⟩
  · refine ⟨fun _ => ⟨hne, hbearer⟩, fun _ _ => hroute, fun hne' hother => ?_, fun hnone => ?_⟩
    · exact absurd (hsame hother hbearer) (h.restricted hne').distinct.2
    · exact absurd hbearer (hnone _ (by simp))
  · refine ⟨fun hyes => ?_, fun hne' hother => ?_, fun hne' hother => ?_, fun hnone => ?_⟩
    · rw [hroute] at hyes
      cases hyes
    · exact absurd (hsame hother hbearer) (h.operator hne').distinct
    · exact absurd (hsame hother hbearer) (h.restricted hne').distinct.1
    · exact absurd hbearer (hnone _ (by simp))
  · refine ⟨fun hyes => ?_, fun hne' hother => ?_, fun hne' _ => ?_, fun hnone => ?_⟩
    · rw [hroute] at hyes
      cases hyes
    · exact absurd (hsame hbearer hother) (h.restricted hne).distinct.2
    · obtain ⟨g, hg⟩ := Option.ne_none_iff_exists'.mp (fun hnone => hne' (h.granted.mp hnone))
      obtain ⟨tool, hruns⟩ := runs_iff.mp (runs_of_reaches hreaches (.inl hroute)).2
      refine ⟨g, tool, hg, hruns.found, hruns.valid, ?_⟩
      have hauthorized := hruns.authorized
      simp only [HttpRequest.call, hgrants, hg, Option.getD_some] at hauthorized
      exact granted_of_authorized hauthorized
    · exact absurd hbearer (hnone _ (by simp))

/-- A server whose only tool counts. -/
def counting : Server ℕ Unit := fun name =>
  if name = "get_orders" then some ⟨"get_ordersArguments", false, true, none, fun _ => none, fun _ s => (.ok (), s + 1)⟩
  else none

/-- The restricted client asks for the orders of an account, or tries an operator route. -/
def asking (path token : String) (env : Environment) : HttpRequest where
  authorization := ["Bearer " ++ token]
  path := path
  secure := true
  allowed := true
  name := "get_orders"
  arguments := naming env
  checkedAt := "2026-01-02T03:04:05Z"

def asked : List HttpRequest :=
  [asking "/mcp" "reader" .simulate, asking "/mcp" "operator" .simulate, asking "/operator/approvals/1" "reader" .simulate,
    asking "/operator/approvals/1" "operator" .simulate]

example : (do
    let settings ← (start asciiHost paperEnviron).toOption
    let app ← (appOf asciiHost settings).toOption
    return asked.map (effective app counting)) = some [true, false, false, true] := by
  decide +kernel

end MoomooMcp.HttpServer
