import Mathlib.Algebra.Order.Ring.Rat
import Mathlib.Tactic.Ring
import MoomooMcp.Intent
import MoomooMcp.Words

namespace MoomooMcp.Health

open Words

def healthDeadlineSeconds : ℚ := 5

def maxErrorChars : ℕ := 200

def permissionMarkers : List String := ["permission", "not authorized", "unauthorized", "no right", "权限"]

/-- Flatten and truncate a gateway error for safe inclusion in a response. -/
def sanitizeError (value : String) : String :=
  let text := unwords ' ' (words Text.isSpace value.toList)
  if maxErrorChars < text.length then String.ofList (text.take (maxErrorChars - 1) ++ ['…']) else String.ofList text

/-- The markers have no letters outside ASCII with a case. -/
def classifyFailure (message : String) : String :=
  if permissionMarkers.any (fun marker => decide (marker.toList <:+: message.toList.map Char.toLower)) then "permission"
  else "gateway_error"

structure ServiceResult where
  status : String
  reason : Option String := none
  error : Option String := none
  gatewayVersion : Option String := none
  loggedIn : Option Bool := none
  accountCount : Option ℕ := none
  deriving DecidableEq

def failure (status error : String) (reason : Option String) : ServiceResult :=
  let message := sanitizeError error
  { status := status, reason := some (reason.getD (classifyFailure message)), error := some message }

/-- The gateway's answer to one probing query. -/
inductive Answer (α : Type)
  | ok (data : α)
  | refused (message : String)
  | raised (message : String)

inductive LoginFlag
  | text (s : String)
  | flag (b : Bool)

def isLoggedIn : LoginFlag → Bool
  | .text s => Text.strip s.toList == ['1']
  | .flag b => b

/-- What the global state says, where it is a dictionary. -/
structure GlobalState where
  serverVer : Option String
  qotLogined : Option LoginFlag

/-- The result of `probe_quote`, or the message of what it raises. -/
def probeQuote (connected : Bool) (answer : Answer (Option GlobalState)) : Except String ServiceResult :=
  if !connected then .ok (failure "unavailable" "Quote context not initialized" (some "not_initialized"))
  else
    match answer with
    | .raised message => .error message
    | .refused message => .ok (failure "error" message none)
    | .ok none => .ok { status := "ok" }
    | .ok (some data) =>
        .ok { status := "ok"
              gatewayVersion := data.serverVer.filter (fun version => !version.isEmpty)
              loggedIn := data.qotLogined.map isLoggedIn }

/-- The data is the number of rows, where it has one. -/
def probeTrade (connected : Bool) (answer : Answer (Option ℕ)) : Except String ServiceResult :=
  if !connected then .ok (failure "unavailable" "Trade context not initialized" (some "not_initialized"))
  else
    match answer with
    | .raised message => .error message
    | .refused message => .ok (failure "error" message none)
    | .ok rows => .ok { status := "ok", accountCount := some (rows.getD 0) }

/-- When the worker of a future ends and what it leaves there, if it ever ends. -/
abbrev Worker := Option (ℚ × Except String ServiceResult)

def timedOut (name : String) : ServiceResult :=
  failure "timeout" (name ++ " probe exceeded the 5s health deadline") (some "timeout")

/-- What `collect` makes of what a finished future holds. -/
def settled : Except String ServiceResult → ServiceResult
  | .ok result => result
  | .error message => failure "error" message none

/-- The result of `collect` called at some time, and the time it returns. -/
def collect (name : String) (w : Worker) (now timeout : ℚ) : ServiceResult × ℚ :=
  match w with
  | some (at_, r) =>
      if at_ ≤ now + max timeout 0 then (settled r, max now at_) else (timedOut name, now + max timeout 0)
  | none => (timedOut name, now + max timeout 0)

def aggregateStatus (results : List ServiceResult) : String :=
  let succeeded := results.countP (fun r => r.status == "ok")
  if succeeded = results.length then "connected" else if 0 < succeeded then "degraded" else "disconnected"

structure HealthCheck where
  deadline : ℚ
  quoteFuture : Worker
  tradeFuture : Option Worker
  started : ℚ

namespace HealthCheck

def remaining (c : HealthCheck) (now : ℚ) : ℚ := c.deadline - (now - c.started)

structure Report where
  status : String
  quote : ServiceResult
  trade : ServiceResult
  gatewayVersion : Option String
  returned : ℚ

/-- `result` called at some time; collecting and reading the clock take no time. -/
def result (c : HealthCheck) (now : ℚ) : Report :=
  let quote := collect "quote" c.quoteFuture now (c.remaining now)
  let trade :=
    match c.tradeFuture with
    | none => (failure "unavailable" "Trade service not configured" (some "not_initialized"), quote.2)
    | some w => collect "trade" w quote.2 (c.remaining quote.2)
  { status := aggregateStatus [quote.1, trade.1]
    quote := quote.1
    trade := trade.1
    gatewayVersion := quote.1.gatewayVersion
    returned := trade.2 }

end HealthCheck

theorem isSpace_blank : Text.isSpace ' ' = true := by decide

theorem sanitizeError_tidy (value : String) : Tidy Text.isSpace ' ' (sanitizeError value).toList := by
  have htidy := @tidy_unwords_words _ Text.isSpace ' ' value.toList
  rw [sanitizeError]
  split
  · rw [String.toList_ofList]
    exact htidy.take_snoc (by decide) _
  · rwa [String.toList_ofList]

theorem sanitizeError_length (value : String) : (sanitizeError value).length ≤ maxErrorChars := by
  rw [sanitizeError]
  split
  · next hlong =>
      rw [String.length_ofList, List.length_append, List.length_take, List.length_singleton]
      simp only [maxErrorChars] at hlong ⊢
      omega
  · next hshort => simpa using hshort

/-- Sanitizing an error twice is sanitizing it once. -/
theorem sanitizeError_sanitizeError (value : String) : sanitizeError (sanitizeError value) = sanitizeError value := by
  have hsame := (sanitizeError_tidy value).unwords_words isSpace_blank
  have hshort : ¬ maxErrorChars < (sanitizeError value).toList.length := by
    rw [String.length_toList]
    exact Nat.not_lt.mpr (sanitizeError_length value)
  rw [sanitizeError, hsame, if_neg hshort, String.ofList_toList]

/-- A result whose error text is short, on one line and evenly spaced. -/
def ServiceResult.Clean (r : ServiceResult) : Prop :=
  ∀ e ∈ r.error, sanitizeError e = e ∧ e.length ≤ maxErrorChars

theorem failure_clean (status error : String) (reason : Option String) : (failure status error reason).Clean := by
  intro e he
  cases he
  exact ⟨sanitizeError_sanitizeError error, sanitizeError_length error⟩

theorem probeQuote_clean {connected : Bool} {answer : Answer (Option GlobalState)} {r : ServiceResult}
    (h : probeQuote connected answer = .ok r) : r.Clean := by
  cases connected with
  | false => cases h; exact failure_clean _ _ _
  | true =>
      cases answer with
      | raised => cases h
      | refused => cases h; exact failure_clean _ _ _
      | ok data => cases data <;> cases h <;> nofun

theorem probeTrade_clean {connected : Bool} {answer : Answer (Option ℕ)} {r : ServiceResult}
    (h : probeTrade connected answer = .ok r) : r.Clean := by
  cases connected with
  | false => cases h; exact failure_clean _ _ _
  | true =>
      cases answer with
      | raised => cases h
      | refused => cases h; exact failure_clean _ _ _
      | ok rows => cases h; nofun

/-- The worker ended by some time with a result of its own that is ok. -/
def Worker.OkBy (w : Worker) (limit : ℚ) : Prop :=
  ∃ at_ r, w = some (at_, .ok r) ∧ at_ ≤ limit ∧ r.status = "ok"

variable {name : String} {w : Worker} {now timeout : ℚ}

/-- A collection ends with what the worker left, or with a timeout at the limit. -/
theorem collect_cases (name : String) (w : Worker) (now timeout : ℚ) :
    (∃ at_ r, w = some (at_, r) ∧ at_ ≤ now + max timeout 0 ∧ collect name w now timeout = (settled r, max now at_)) ∨
      ((∀ at_ r, w = some (at_, r) → ¬ at_ ≤ now + max timeout 0) ∧
        collect name w now timeout = (timedOut name, now + max timeout 0)) := by
  cases w with
  | none => exact .inr ⟨nofun, rfl⟩
  | some ended =>
      obtain ⟨at_, r⟩ := ended
      by_cases hend : at_ ≤ now + max timeout 0
      · exact .inl ⟨at_, r, rfl, hend, if_pos hend⟩
      · exact .inr ⟨fun _ _ h => by cases h; exact hend, if_neg hend⟩

theorem collect_time : now ≤ (collect name w now timeout).2 ∧
    (collect name w now timeout).2 ≤ now + max timeout 0 := by
  have hnow : now ≤ now + max timeout 0 := le_add_of_nonneg_right (le_max_right _ _)
  obtain ⟨at_, r, -, hend, heq⟩ | ⟨-, heq⟩ := collect_cases name w now timeout
  · rw [heq]
    exact ⟨le_max_left _ _, max_le hnow hend⟩
  · rw [heq]
    exact ⟨hnow, le_rfl⟩

theorem collect_ok : (collect name w now timeout).1.status = "ok" ↔ w.OkBy (now + max timeout 0) := by
  obtain ⟨at_, r, rfl, hend, heq⟩ | ⟨hlate, heq⟩ := collect_cases name w now timeout
  · rw [heq]
    cases r with
    | ok r => exact ⟨fun hok => ⟨at_, r, rfl, hend, hok⟩, fun ⟨_, _, h, _, hok⟩ => by cases h; exact hok⟩
    | error message => exact ⟨fun hok => by simp [settled, failure] at hok, fun ⟨_, _, h, _⟩ => by cases h⟩
  · rw [heq]
    refine ⟨fun hok => by simp [timedOut, failure] at hok, ?_⟩
    rintro ⟨at_, r, hw, hend, -⟩
    exact absurd hend (hlate at_ (.ok r) hw)

theorem collect_clean (h : ∀ at_ r, w = some (at_, .ok r) → r.Clean) : (collect name w now timeout).1.Clean := by
  obtain ⟨at_, r, rfl, -, heq⟩ | ⟨-, heq⟩ := collect_cases name w now timeout
  · rw [heq]
    cases r with
    | ok r => exact h at_ r rfl
    | error message => exact failure_clean _ _ _
  · rw [heq]
    exact failure_clean _ _ _

namespace HealthCheck

variable {c : HealthCheck}

/-- Waiting out what remains ends when the deadline does. -/
theorem remaining_limit (c : HealthCheck) (now : ℚ) :
    now + max (c.remaining now) 0 = max now (c.started + c.deadline) := by
  rw [max_comm (c.remaining now), ← max_add_add_left, add_zero, remaining]
  congr 1
  ring

theorem limit_of_between {now later limit : ℚ} (hlater : now ≤ later) (hlimit : later ≤ max now limit) :
    max later limit = max now limit :=
  le_antisymm (max_le hlimit (le_max_right _ _)) (max_le_max_right limit hlater)

/-- The time up to which the check waits for both workers. -/
def limit (c : HealthCheck) (now : ℚ) : ℚ := max now (c.started + c.deadline)

theorem aggregate_pair (a b : ServiceResult) :
    (aggregateStatus [a, b] = "connected" ↔ a.status = "ok" ∧ b.status = "ok") ∧
      (aggregateStatus [a, b] = "disconnected" ↔ a.status ≠ "ok" ∧ b.status ≠ "ok") := by
  by_cases ha : a.status = "ok" <;> by_cases hb : b.status = "ok" <;> simp [aggregateStatus, ha, hb]

theorem result_quote (c : HealthCheck) (now : ℚ) : (c.result now).quote.status = "ok" ↔ c.quoteFuture.OkBy (c.limit now) := by
  rw [limit, ← remaining_limit]
  exact collect_ok

theorem result_trade (c : HealthCheck) (now : ℚ) :
    ((c.result now).trade.status = "ok" ↔ ∃ w, c.tradeFuture = some w ∧ w.OkBy (c.limit now)) ∧
      (c.result now).returned ≤ c.limit now := by
  have htime := @collect_time "quote" c.quoteFuture now (c.remaining now)
  rw [remaining_limit] at htime
  rw [result]
  cases htrade : c.tradeFuture with
  | none => exact ⟨by simp [failure], htime.2⟩
  | some w =>
      have hlimit := limit_of_between htime.1 htime.2
      have hlater := @collect_time "trade" w (collect "quote" c.quoteFuture now (c.remaining now)).2
        (c.remaining (collect "quote" c.quoteFuture now (c.remaining now)).2)
      rw [remaining_limit, hlimit] at hlater
      refine ⟨?_, hlater.2⟩
      dsimp only
      rw [collect_ok, remaining_limit, hlimit]
      simp [limit]

/-- A quote probe that answers after a second, and a trade probe that never does. -/
def stuckTrade : HealthCheck := ⟨5, some (1, probeQuote true (.ok none)), some none, 0⟩

end HealthCheck
end MoomooMcp.Health
