import Mathlib.Data.Rat.Defs
import Mathlib.Algebra.Order.Ring.Rat
import Mathlib.Logic.Function.Basic
import MoomooMcp.Machine

namespace MoomooMcp.Supervisor

inductive Child
  | gateway
  | server
  deriving DecidableEq, Repr

abbrev Pid := ℕ

structure Config where
  gateway : Bool := true
  maxGatewayRestarts : ℕ := 5
  gatewayRestartWindow : ℚ := 300
  gatewayRestartBackoff : ℚ := 1
  maxGatewayRestartBackoff : ℚ := 30
  stopTimeout : ℚ := 10

inductive ExitCode
  | ok
  | serverExited
  | gatewayUnrecoverable
  deriving DecidableEq, Repr

/-- Where the supervisor is in its program: starting, between two ticks, in one of
them, stopping the children, or at its end. -/
inductive Control
  | startGateway
  | startServer
  | idle
  | reaping
  | restarting
  | terminating (code : ExitCode)
  | collecting (code : ExitCode) (deadline : ℚ)
  | draining (code : ExitCode)
  | ended (code : ExitCode)
  | crashed
  deriving DecidableEq, Repr

/-- What is noted of a run. The exit of a process, and not its collection, is
what only the kernel knows. -/
inductive Entry
  | started (child : Child) (time : ℚ)
  | exited (child : Child)
  | signalled
  | ticked
  | passed
  | reaped (child : Child)
  | answered (time due : ℚ)
  | gaveUp (time : ℚ)
  | finishing (code : ExitCode)
  deriving DecidableEq, Repr

structure System where
  control : Control
  now : ℚ := 0
  pids : Child → Option Pid := fun _ => none
  gatewayRestarts : List ℚ := []
  gatewayRestartDue : Option ℚ := none
  stopSignal : Option ℕ := none
  /-- The processes of the supervisor that are alive. -/
  running : List (Child × Pid) := []
  /-- The processes that have exited and wait to be collected, orphans among them. -/
  zombies : List Pid := []
  log : List Entry := []

inductive Waited
  | child (pid : Pid)
  | nothing
  | noChildren
  deriving DecidableEq, Repr

/-- What happens next, in the world or in the supervisor. -/
inductive Event
  | advance (t : ℚ)
  | exit (child : Child) (pid : Pid)
  | orphan (pid : Pid)
  | signal (signum : ℕ)
  | tick
  | fork (pid : Pid)
  | waitpid (w : Waited)
  | proceed
  deriving DecidableEq, Repr

def initial (c : Config) : System where
  control := if c.gateway then .startGateway else .startServer

namespace System

variable (c : Config) (s : System)

def note (e : Entry) : System := { s with log := s.log ++ [e] }

def tracked (child : Child) : Bool := (s.pids child).isSome

/-- `while self._pids`. -/
def childless : Bool := !s.tracked .gateway && !s.tracked .server

def fresh (pid : Pid) : Bool := decide (pid ∉ s.zombies) && s.running.all (fun r => r.2 ≠ pid)

/-- What `waitpid` may return. An orphan that still runs is a child, too. -/
def canWait : Waited → Bool
  | .child pid => decide (pid ∈ s.zombies)
  | .nothing => s.zombies.isEmpty
  | .noChildren => s.zombies.isEmpty && s.running.isEmpty

def spawn (child : Child) (pid : Pid) : System :=
  ({ s with pids := Function.update s.pids child (some pid), running := (child, pid) :: s.running }).note
    (.started child s.now)

/-- Begin to stop every remaining child. -/
def shutdown (code : ExitCode) : System := ({ s with control := .terminating code }).note (.finishing code)

def recentRestarts : List ℚ := s.gatewayRestarts.filter (fun t => s.now - t < c.gatewayRestartWindow)

def delay (k : ℕ) : ℚ := min (c.gatewayRestartBackoff * 2 ^ k) c.maxGatewayRestartBackoff

def onGatewayExit : System :=
  let recent := s.recentRestarts c
  if c.maxGatewayRestarts ≤ recent.length then
    (({ s with gatewayRestarts := recent }).note (.gaveUp s.now)).shutdown .gatewayUnrecoverable
  -- The power of two is made a float before the delay is bounded, and from here on it has none.
  else if 1024 ≤ recent.length then { s with gatewayRestarts := recent, control := .crashed }
  else
    let due := s.now + delay c recent.length
    ({ s with gatewayRestarts := recent ++ [s.now], gatewayRestartDue := some due }).note (.answered s.now due)

/-- The tracked child with a process identifier. -/
def nameOf (pid : Pid) : Option Child :=
  if s.pids .gateway = some pid then some .gateway
  else if s.pids .server = some pid then some .server
  else none

def forget (child : Child) : System := { s with pids := Function.update s.pids child none }

def collected (pid : Pid) : System := { s with zombies := s.zombies.erase pid }

/-- Collect an exit, and decide what it means. -/
def reap (pid : Pid) : System :=
  let t := s.collected pid
  match t.nameOf pid with
  | none => t
  | some .server => ((t.forget .server).note (.reaped .server)).shutdown .serverExited
  | some .gateway => ((t.forget .gateway).note (.reaped .gateway)).onGatewayExit c

/-- Collect an exit without interpreting it. -/
def collect : Waited → System
  | .nothing => s
  | .noChildren => { s with pids := fun _ => none }
  | .child pid =>
      let t := s.collected pid
      match t.nameOf pid with
      | none => t
      | some child => t.forget child

def restartDue : Bool := c.gateway && s.gatewayRestartDue.any (fun due => decide (due ≤ s.now))

end System

open System

def forked (c : Config) (s : System) (pid : Pid) : Option System :=
  match s.control with
  | .startGateway => some { s.spawn .gateway pid with control := .startServer }
  | .startServer => some { s.spawn .server pid with control := .idle }
  | .restarting =>
      if s.restartDue c then some { ({ s with gatewayRestartDue := none }).spawn .gateway pid with control := .idle }
      else none
  | _ => none

def waited (c : Config) (s : System) (w : Waited) : Option System :=
  match s.control with
  | .reaping =>
      match w with
      | .child pid => some (s.reap c pid)
      | _ => some ({ s with control := .restarting }.note .passed)
  | .collecting _ deadline => if !s.childless && decide (s.now < deadline) then some (s.collect w) else none
  | .draining _ => if !s.childless && w ≠ .nothing then some (s.collect w) else none
  | _ => none

def proceeded (c : Config) (s : System) : Option System :=
  match s.control with
  | .restarting => if s.restartDue c then none else some { s with control := .idle }
  | .terminating code => some { s with control := .collecting code (s.now + c.stopTimeout) }
  | .collecting code deadline =>
      if s.childless || decide (deadline ≤ s.now) then some { s with control := .draining code } else none
  | .draining code => if s.childless then some { s with control := .ended code } else none
  | _ => none

def step (c : Config) (s : System) : Event → Option System
  | .advance t => if s.now ≤ t then some { s with now := t } else none
  | .exit child pid =>
      if (child, pid) ∈ s.running then
        some ({ s with running := s.running.erase (child, pid), zombies := pid :: s.zombies }.note (.exited child))
      else none
  | .orphan pid => if s.fresh pid then some { s with zombies := pid :: s.zombies } else none
  | .signal signum => some ({ s with stopSignal := some signum }.note .signalled)
  | .tick =>
      if s.control = .idle then
        let t := s.note .ticked
        some (if s.stopSignal.isSome then t.shutdown .ok else { t with control := .reaping })
      else none
  | .fork pid => if s.fresh pid then forked c s pid else none
  | .waitpid w => if s.canWait w then waited c s w else none
  | .proceed => proceeded c s

end MoomooMcp.Supervisor
