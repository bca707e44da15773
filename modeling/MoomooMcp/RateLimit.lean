import Mathlib.Algebra.BigOperators.Group.Finset.Basic
import Mathlib.Data.Rat.Floor
import MoomooMcp.Machine
import MoomooMcp.RollingWindow

namespace MoomooMcp.RateLimit

open RollingWindow

structure RateLimitPolicy where
  provider : String
  operation : String
  calls : ℤ
  periodSeconds : ℚ
  safetyMarginSeconds : ℚ
  maxWaitSeconds : ℚ
  minIntervalSeconds : ℚ
  calls_pos : 1 ≤ calls
  period_pos : 0 < periodSeconds
  margin_nonneg : 0 ≤ safetyMarginSeconds
  wait_nonneg : 0 ≤ maxWaitSeconds
  interval_nonneg : 0 ≤ minIntervalSeconds

namespace RateLimitPolicy

/-- A setting that is neither infinite nor not a number, and not negative. -/
def finite (name : String) : Option ℚ → Except String (Subtype (fun q : ℚ => 0 ≤ q))
  | none => .error (name ++ " must be finite and non-negative")
  | some q => if h : 0 ≤ q then .ok ⟨q, h⟩ else .error (name ++ " must be finite and non-negative")

/-- The checks of a new policy. An infinity or a number that is none is `none`. -/
def new (provider operation : String) (calls : ℤ) (period margin wait interval : Option ℚ) :
    Except String RateLimitPolicy :=
  if hcalls : calls < 1 then .error "calls must be positive"
  else do
    let period ← finite "period_seconds" period
    let margin ← finite "safety_margin_seconds" margin
    let wait ← finite "max_wait_seconds" wait
    let interval ← finite "min_interval_seconds" interval
    if hperiod : period.1 = 0 then .error "period_seconds must be positive"
    else .ok ⟨provider, operation, calls, period.1, margin.1, wait.1, interval.1, not_lt.mp hcalls,
      lt_of_le_of_ne period.2 (Ne.symm hperiod), margin.2, wait.2, interval.2⟩

def windowSeconds (p : RateLimitPolicy) : ℚ := p.periodSeconds + p.safetyMarginSeconds

theorem window_nonneg (p : RateLimitPolicy) : 0 ≤ p.windowSeconds :=
  add_nonneg p.period_pos.le p.margin_nonneg

end RateLimitPolicy

structure ProviderRateLimitError where
  provider : String
  operation : String
  retryAfterSeconds : ℤ

namespace ProviderRateLimitError

/-- The error of a refused admission, with the wait rounded up. -/
def new (policy : RateLimitPolicy) (retryAfter : ℚ) : ProviderRateLimitError :=
  ⟨policy.provider, policy.operation, max 1 ⌈retryAfter⌉⟩

def message (e : ProviderRateLimitError) : String :=
  e.provider ++ " " ++ e.operation ++ " rate limit exceeded; retry after " ++ toString e.retryAfterSeconds ++
    " seconds (retry_after_seconds=" ++ toString e.retryAfterSeconds ++ ")."

end ProviderRateLimitError

inductive LimitError
  | value (message : String)
  | rateLimited (e : ProviderRateLimitError)
  | runtime (message : String)

structure Rate where
  limit : ℤ
  interval : ℤ

/-- The bucket of the rate limiting library, with a timestamp for each item.
A `put` that is refused leaves the bucket as it was. -/
class InMemoryBucket (β : Type) where
  new : Rate → β
  rate : β → Rate
  items : β → List ℤ
  leak : ℤ → β → β
  put : ℤ → β → Option β
  count : β → ℕ
  peek : ℤ → β → Option ℤ

open InMemoryBucket

/-- What the limiter relies on in a bucket: `leak` keeps exactly the timestamps within
the interval, `put` accepts exactly where fewer than the limit lie within it. -/
class LawfulBucket (β : Type) [InMemoryBucket β] : Prop where
  rate_new (r : Rate) : rate (new r : β) = r
  items_new (r : Rate) : items (new r : β) = []
  rate_leak (now : ℤ) (b : β) : rate (leak now b) = rate b
  items_leak (now : ℤ) (b : β) (h : (items b).Pairwise (· ≤ ·)) :
    items (leak now b) = within (rate b).interval now (items b)
  put_isSome (now : ℤ) (b : β) (h : (items b).Pairwise (· ≤ ·)) :
    (put now b).isSome ↔ ((within (rate b).interval now (items b)).length : ℤ) < (rate b).limit
  rate_put {now : ℤ} {b b' : β} (h : put now b = some b') : rate b' = rate b
  items_put {now : ℤ} {b b' : β} (h : put now b = some b') : items b' = items b ++ [now]
  count_eq (b : β) : count b = (items b).length
  peek_eq (n : ℕ) (b : β) : peek n b = (items b).reverse[n]?

/-- The state of a limiter. A reservation is known by its number, and `remaining` holds
what each one has left. -/
structure Limiter (β : Type) where
  policy : RateLimitPolicy
  bucket : β
  spacing : Option β
  pending : Finset ℕ
  remaining : ℕ → ℤ
  issued : ℕ
  waiters : List ℕ

/-- A clock reading in whole milliseconds. -/
def millis (now : ℚ) : ℤ := ⌊now * 1000⌋

/-- A duration in milliseconds, rounded up. -/
def widthMillis (seconds : ℚ) : ℤ := ⌈seconds * 1000⌉

def RateLimitPolicy.rate (p : RateLimitPolicy) : Rate := ⟨p.calls, widthMillis p.windowSeconds⟩

def RateLimitPolicy.spacingRate (p : RateLimitPolicy) : Rate := ⟨1, widthMillis p.minIntervalSeconds⟩

/-- What an attempt to reserve ends in. -/
inductive Attempt
  | invalid (message : String)
  | reserved (slot : ℕ)
  | refused (retryAfter : ℚ)

namespace Limiter

variable {β : Type} [InMemoryBucket β]

def new (policy : RateLimitPolicy) : Limiter β where
  policy := policy
  bucket := InMemoryBucket.new policy.rate
  spacing := if policy.minIntervalSeconds = 0 then none else some (InMemoryBucket.new policy.spacingRate)
  pending := ∅
  remaining := fun _ => 0
  issued := 0
  waiters := []

def prune (now : ℚ) (l : Limiter β) : Limiter β :=
  { l with bucket := leak (millis now) l.bucket, spacing := l.spacing.map (leak (millis now)) }

/-- The wait until an item leaves its window. -/
def untilFree (timestamp : ℤ) (b : β) (now : ℚ) : ℚ :=
  max (1 / 1000) ((timestamp + (rate b).interval + 1 : ℤ) / 1000 - now)

/-- Pending workers have no known dispatch time, a full window is an estimate. -/
def retryAfter (now : ℚ) (l : Limiter β) : ℚ :=
  match peek (count l.bucket - 1) l.bucket with
  | some oldest => untilFree oldest l.bucket now
  | none => l.policy.windowSeconds

def pendingWeight (l : Limiter β) : ℤ := ∑ slot ∈ l.pending, l.remaining slot

/-- What keeps a paced operation from being reserved: one start may be pending. -/
def checkSpacing (weight : ℤ) (now : ℚ) (l : Limiter β) : Option Attempt :=
  match l.spacing with
  | none => none
  | some spacing =>
    if weight ≠ 1 then some (.invalid "Paced operations require single-call reservations")
    else if l.pending ≠ ∅ then some (.refused l.policy.windowSeconds)
    else (peek 0 spacing).map (fun previous => .refused (untilFree previous spacing now))

/-- A new reservation. -/
def book (weight : ℤ) (l : Limiter β) : Limiter β :=
  { l with
    pending := insert l.issued l.pending
    remaining := Function.update l.remaining l.issued weight
    issued := l.issued + 1 }

def tryReserve (weight : ℤ) (ticket : Option ℕ) (now : ℚ) (l : Limiter β) : Attempt × Limiter β :=
  if weight < 1 ∨ l.policy.calls < weight then
    (.invalid "Reservation weight must fit the operation budget", l)
  else
    let l := l.prune now
    if l.waiters ≠ [] ∧ l.waiters.head? ≠ ticket then (.refused (l.retryAfter now), l)
    else
      match l.checkSpacing weight now with
      | some attempt => (attempt, l)
      | none =>
        if count l.bucket + l.pendingWeight + weight ≤ l.policy.calls then (.reserved l.issued, l.book weight)
        else (.refused (l.retryAfter now), l)

/-- Reserve immediately; synchronous callers never sleep for quota. -/
def reserve (weight : ℤ) (now : ℚ) (l : Limiter β) : Except LimitError ℕ × Limiter β :=
  match l.tryReserve weight none now with
  | (.invalid message, l) => (.error (.value message), l)
  | (.reserved slot, l) => (.ok slot, l)
  | (.refused retryAfter, l) => (.error (.rateLimited (.new l.policy retryAfter)), l)

/-- One call of a reservation is used. -/
def spend (slot : ℕ) (l : Limiter β) : Limiter β :=
  { l with
    pending := if l.remaining slot - 1 = 0 then l.pending.erase slot else l.pending
    remaining := Function.update l.remaining slot (l.remaining slot - 1) }

/-- Commit a call immediately before it is made, or reject a released slot. -/
def start (slot : ℕ) (now : ℚ) (l : Limiter β) : Except LimitError Unit × Limiter β :=
  if slot ∈ l.pending then
    let l := l.prune now
    match put (millis now) l.bucket with
    | none => (.error (.runtime "Reserved provider capacity was not available"), l)
    | some bucket =>
      let l := { l with bucket := bucket }
      match l.spacing with
      | none => (.ok (), l.spend slot)
      | some spacing =>
        match put (millis now) spacing with
        | none => (.error (.runtime "Reserved dispatch spacing was not available"), l)
        | some spacing => (.ok (), { l with spacing := some spacing }.spend slot)
  else (.error (.runtime "Provider request reservation already released or used"), l)

/-- Return unused capacity without refunding a dispatched attempt. -/
def release (slot : ℕ) (l : Limiter β) : Limiter β :=
  { l with pending := l.pending.erase slot, remaining := Function.update l.remaining slot 0 }

end Limiter

inductive Outcome
  | reserved (slot : ℕ)
  | raised (e : LimitError)
  | cancelled

/-- Where a call of `acquire` is. It reads the clock more than once, and others run between. -/
inductive Phase
  | entering
  | checking
  | expired
  | trying
  | refused (retryAfter : ℚ)
  | sleeping (seconds : ℚ)
  | leaving (outcome : Outcome)
  | left (outcome : Outcome)

structure Acquire where
  weight : ℤ
  deadline : ℚ
  phase : Phase

/-- A limiter and its callers. A ticket is known by its number; `starts` are the clock
readings of all calls that were started, and the code does not keep them. -/
structure Sys (β : Type) where
  limiter : Limiter β
  clock : ℚ
  acquires : ℕ → Option Acquire
  tickets : ℕ
  starts : List ℚ

inductive Action
  | tick (now : ℚ)
  | reserve (weight : ℤ)
  | acquire (weight : ℤ) (deadline : Option ℚ)
  | advance (ticket : ℕ)
  | cancel (ticket : ℕ)
  | start (slot : ℕ)
  | release (slot : ℕ)

namespace Sys

variable {β : Type} [InMemoryBucket β]

def init (policy : RateLimitPolicy) (clock : ℚ) : Sys β := ⟨.new policy, clock, fun _ => none, 0, []⟩

def move (s : Sys β) (ticket : ℕ) (a : Acquire) (phase : Phase) (limiter : Limiter β) : Sys β :=
  { s with limiter := limiter, acquires := Function.update s.acquires ticket (some { a with phase := phase }) }

/-- The next step of a call of `acquire`. -/
def advance (s : Sys β) (ticket : ℕ) (a : Acquire) : Option (Sys β) :=
  let l := s.limiter
  match a.phase with
  | .entering => some (s.move ticket a .checking { l with waiters := l.waiters ++ [ticket] })
  | .checking => some (s.move ticket a (if a.deadline < s.clock then .expired else .trying) l)
  | .expired =>
    let l := l.prune s.clock
    some (s.move ticket a (.leaving (.raised (.rateLimited (.new l.policy (l.retryAfter s.clock))))) l)
  | .trying =>
    match l.tryReserve a.weight (some ticket) s.clock with
    | (.invalid message, l) => some (s.move ticket a (.leaving (.raised (.value message))) l)
    | (.reserved slot, l) => some (s.move ticket a (.leaving (.reserved slot)) l)
    | (.refused retryAfter, l) => some (s.move ticket a (.refused retryAfter) l)
  | .refused retryAfter =>
    let remaining := a.deadline - s.clock
    if remaining ≤ 0 then
      some (s.move ticket a (.leaving (.raised (.rateLimited (.new l.policy retryAfter)))) l)
    else some (s.move ticket a (.sleeping (min retryAfter (min remaining (5 / 100)))) l)
  | .sleeping _ => some (s.move ticket a .checking l)
  | .leaving outcome => some (s.move ticket a (.left outcome) { l with waiters := l.waiters.erase ticket })
  | .left _ => none

/-- A call of `acquire` begins. A policy without a wait makes it a `reserve`. -/
def acquire (s : Sys β) (weight : ℤ) (deadline : Option ℚ) : Sys β :=
  if s.limiter.policy.maxWaitSeconds = 0 then
    { s with limiter := (s.limiter.reserve weight s.clock).2 }
  else
    { s with
      acquires := Function.update s.acquires s.tickets
        (some ⟨weight, deadline.getD (s.clock + s.limiter.policy.maxWaitSeconds), .entering⟩)
      tickets := s.tickets + 1 }

/-- The limiter's lock makes each of its operations one step. A call of `acquire` can be
cancelled where it sleeps. -/
def step (s : Sys β) : Action → Option (Sys β)
  | .tick now => if s.clock ≤ now then some { s with clock := now } else none
  | .reserve weight => some { s with limiter := (s.limiter.reserve weight s.clock).2 }
  | .acquire weight deadline => some (s.acquire weight deadline)
  | .advance ticket => (s.acquires ticket).bind (s.advance ticket)
  | .cancel ticket =>
    match s.acquires ticket with
    | some a =>
      match a.phase with
      | .sleeping _ => some (s.move ticket a (.leaving .cancelled) s.limiter)
      | _ => none
    | none => none
  | .start slot =>
    if slot < s.limiter.issued then
      match s.limiter.start slot s.clock with
      | (.ok (), l) => some { s with limiter := l, starts := s.starts ++ [s.clock] }
      | (.error _, l) => some { s with limiter := l }
    else none
  | .release slot =>
    if slot < s.limiter.issued then some { s with limiter := s.limiter.release slot } else none

end Sys

end MoomooMcp.RateLimit
