import Mathlib.Algebra.Order.Field.Rat
import MoomooMcp.Machine

namespace MoomooMcp.ReadDeadline

/-- What a dispatcher is constructed with. -/
structure Limits where
  readTimeoutSeconds : ℚ
  maxInflightReads : ℕ
  maxPendingReads : ℕ
  timeout_pos : 0 < readTimeoutSeconds
  inflight_pos : 1 ≤ maxInflightReads
  pending_pos : 1 ≤ maxPendingReads

/-- Where the outermost scope of a read is. -/
inductive Await
  | inside
  | leaving
  | ended
  deriving DecidableEq, Repr

/-- The state of a read, which its workers share, and the nested scopes open in it. -/
structure ReadCall where
  deadline : ℚ
  cancelled : Bool
  scopes : ℕ
  await : Await
  deriving DecidableEq

/-- Where a call of `read_worker` is: the first three are the awaiter's, the others are
those of the worker that it occupies a slot for. -/
inductive Phase
  | quota
  | queued
  | polled
  | occupied
  | entered
  | running
  | checked
  | calling
  | returning
  | finished
  deriving DecidableEq, Repr

structure Job where
  read : ℕ
  phase : Phase
  deriving DecidableEq, Repr

/-- The dispatcher with the clock, and every read and every job since it was constructed. -/
structure Dispatcher where
  clock : ℚ
  readWorkers : ℤ
  pendingReads : ℤ
  reads : List ReadCall
  jobs : List Job
  deriving DecidableEq

def Dispatcher.initial : Dispatcher := ⟨0, 0, 0, [], []⟩

inductive Outcome
  | goes
  | stops
  deriving DecidableEq, Repr

inductive Action
  | tick (seconds : ℚ)
  /-- `read_deadline`, for a context with or without a read. -/
  | enter (current : Option ℕ)
  | leaveNested (read : ℕ)
  /-- The timer of a read. -/
  | expire (read : ℕ)
  /-- The end of the body of the outermost scope. -/
  | leave (read : ℕ) (raised : Bool)
  | finish (read : ℕ)
  /-- A call inside a read: of `run_async` for a bundle, or of `read_worker` at once. -/
  | call (read : ℕ) (bundle : Bool)
  | work (job : ℕ) (outcome : Outcome)
  deriving DecidableEq

/-- Whether `check` raises: the read is cancelled or past its deadline. -/
def Dispatcher.isOver (s : Dispatcher) (read : ℕ) : Bool :=
  (s.reads[read]?).any (fun c => c.cancelled || decide (c.deadline ≤ s.clock))

def Dispatcher.setRead (s : Dispatcher) (read : ℕ) (c : ReadCall) : Dispatcher :=
  { s with reads := s.reads.set read c }

def Dispatcher.at (s : Dispatcher) (job read : ℕ) (ph : Phase) : Dispatcher :=
  { s with jobs := s.jobs.set job ⟨read, ph⟩ }

/-- Nested scopes reuse the slot of their read. -/
def enter (l : Limits) (s : Dispatcher) : Option ℕ → Option Dispatcher
  | some read => (s.reads[read]?).map (fun c => s.setRead read { c with scopes := c.scopes + 1 })
  | none =>
      if l.maxPendingReads ≤ s.pendingReads then some s
      else some { s with
        pendingReads := s.pendingReads + 1
        reads := s.reads ++ [⟨s.clock + l.readTimeoutSeconds, false, 0, .inside⟩] }

/-- The part of a scope behind its body, up to the end of the timer. A body that did not
raise is checked once more. -/
def leave (s : Dispatcher) (read : ℕ) (raised : Bool) (c : ReadCall) : Option Dispatcher :=
  if c.await = .inside then
    some (s.setRead read { c with
      cancelled := c.cancelled || raised || decide (c.deadline ≤ s.clock)
      await := .leaving })
  else none

/-- The next step of a job: of its awaiter up to the start of the thread, and then of the thread. -/
def work (l : Limits) (s : Dispatcher) (job read : ℕ) : Phase → Outcome → Option Dispatcher
  | .quota, .goes => some (s.at job read .queued)
  -- the quota is refused, or the await is cancelled
  | .quota, .stops | .queued, .stops => some (s.at job read .finished)
  | .queued, .goes => some (s.at job read (if s.isOver read then .finished else .polled))
  | .polled, .goes =>
      if s.readWorkers < l.maxInflightReads then
        some { s.at job read .occupied with readWorkers := s.readWorkers + 1 }
      else some (s.at job read .queued)
  | .occupied, .goes => some (s.at job read .entered)
  -- the thread cannot be started
  | .occupied, .stops => some { s.at job read .finished with readWorkers := s.readWorkers - 1 }
  | .entered, .goes => some (s.at job read (if s.isOver read then .returning else .running))
  -- one more SDK call, after a check that may raise inside the function
  | .running, .goes => some (s.at job read (if s.isOver read then .running else .checked))
  | .running, .stops => some (s.at job read .returning)
  | .checked, .goes => some (s.at job read .calling)
  | .calling, .goes => some (s.at job read .running)
  | .returning, .goes => some { s.at job read .finished with readWorkers := s.readWorkers - 1 }
  | _, _ => none

def next (l : Limits) (s : Dispatcher) : Action → Option Dispatcher
  | .tick seconds => if 0 ≤ seconds then some { s with clock := s.clock + seconds } else none
  | .enter current => enter l s current
  | .leaveNested read =>
      match s.reads[read]? with
      | some c => if 0 < c.scopes then some (s.setRead read { c with scopes := c.scopes - 1 }) else none
      | none => none
  | .expire read =>
      match s.reads[read]? with
      | some c => if c.await = .inside then some (s.setRead read { c with cancelled := true }) else none
      | none => none
  | .leave read raised => (s.reads[read]?).bind (leave s read raised)
  | .finish read =>
      match s.reads[read]? with
      | some c =>
          if c.await = .leaving then
            some { s.setRead read { c with await := .ended } with pendingReads := s.pendingReads - 1 }
          else none
      | none => none
  | .call read bundle =>
      if read < s.reads.length then some { s with jobs := s.jobs ++ [⟨read, if bundle then .quota else .queued⟩] }
      else none
  | .work job outcome =>
      match s.jobs[job]? with
      | some j => work l s job j.read j.phase outcome
      | none => none

/-- Whether a job occupies one of the worker slots. -/
def Phase.holds : Phase → Bool
  | .quota | .queued | .polled | .finished => false
  | .occupied | .entered | .running | .checked | .calling | .returning => true

def Job.holds (j : Job) : Bool := j.phase.holds

def ReadCall.pending (c : ReadCall) : Bool := c.await ≠ .ended

/-- A slot is given back only when the blocking function of its job has returned, or its
thread could not be started, and then for good. -/
def SlotsKept (s : Dispatcher) (a : Action) (t : Dispatcher) : Prop :=
  ∀ i j, s.jobs[i]? = some j → ∃ j', t.jobs[i]? = some j' ∧ (j.phase = .finished → j' = j) ∧
    (j.holds = true → j'.holds = false → j'.phase = .finished ∧
      (a = .work i .goes ∧ j.phase = .returning ∨ a = .work i .stops ∧ j.phase = .occupied))

/-- The pending slot of a read is given back when its await ends, and then for good.
Nested scopes take none. -/
def PendingKept (s : Dispatcher) (a : Action) (t : Dispatcher) : Prop :=
  (∀ r c, s.reads[r]? = some c → ∃ c', t.reads[r]? = some c' ∧ (c.await = .ended → c'.await = .ended) ∧
    (c.pending = true → c'.pending = false → a = .finish r ∧ c.await = .leaving)) ∧
  (∀ r, a = .enter (some r) ∨ a = .leaveNested r → t.pendingReads = s.pendingReads)

/-- A step that starts an SDK call starts it for a read that is neither cancelled nor expired. -/
def Timely (s : Dispatcher) (a : Action) (_ : Dispatcher) : Prop :=
  match a with
  | .work job .goes => ∀ j ∈ s.jobs[job]?, j.phase = .checked → s.isOver j.read = false
  | _ => True

/-- A step that ends no read while one of its workers has passed its check and not
started its call. -/
def Careful (s : Dispatcher) (a : Action) (_ : Dispatcher) : Prop :=
  match a with
  | .tick seconds =>
      ∀ j ∈ s.jobs, j.phase = .checked → ∀ c ∈ s.reads[j.read]?, s.clock + seconds < c.deadline
  | .expire r | .leave r true => ∀ j ∈ s.jobs, j.read = r → j.phase ≠ .checked
  | _ => True

instance (s : Dispatcher) (a : Action) (t : Dispatcher) : Decidable (Careful s a t) :=
  match a with
  | .tick seconds =>
      inferInstanceAs (Decidable
        (∀ j ∈ s.jobs, j.phase = .checked → ∀ c ∈ s.reads[j.read]?, s.clock + seconds < c.deadline))
  | .expire r | .leave r true => inferInstanceAs (Decidable (∀ j ∈ s.jobs, j.read = r → j.phase ≠ .checked))
  | .leave _ false | .work _ _ | .enter _ | .leaveNested _ | .finish _ | .call _ _ => .isTrue trivial

end MoomooMcp.ReadDeadline
