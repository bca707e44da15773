import MoomooMcp.Executor

namespace MoomooMcp.System

open ExecutionStore Executor CriticalSection

/-- One running process: what it keeps in memory and where its threads are. -/
structure Process where
  store : Store
  late : List LateFailure
  admissionLock : Option Tid
  lock : Option Tid
  threads : Tid → Phase

/-- A deployment of one environment. The journal survives a crash. `starts` lists
the SDK writes started and `now` is the last clock reading, both over the whole run. -/
structure Sys where
  journal : Journal
  starts : List OperationId
  now : ℚ
  process : Option Process

def initial (env : Environment) : Sys := ⟨Journal.initial env, [], 0, none⟩

inductive Action
  | thread (t : Tid) (i : Input)
  | crash
  | reopen (epoch : Epoch) (fault reviewFault : Fault)

/-- The clock readings of a step, in the order in which they are taken. -/
def readings : Action → List ℚ
  | .thread _ (.check _ _ _ due started) => [due, started]
  | .thread _ (.record completed _ _ _) => [completed]
  | _ => []

/-- Whether a thread still has to wait for a lock before this input. -/
def waits (p : Process) : Input → Bool
  | .preflight _ _ _ => p.admissionLock.isSome
  | .enter _ | .check _ _ _ _ _ => p.lock.isSome
  | _ => false

def shared (s : Sys) (p : Process) : Shared := ⟨s.journal, p.store, p.late, s.starts⟩

def threadStep (s : Sys) (p : Process) (t : Tid) (i : Input) : Option Sys :=
  if waits p i then none
  else
    match act (shared s p) (p.threads t) i with
    | none => none
    | some (sh, ph) =>
        match claim Phase.inAdmission p.admissionLock t (p.threads t) ph,
          claim Phase.inLock p.lock t (p.threads t) ph with
        | some admissionLock, some lock =>
            some ⟨sh.journal, sh.starts, (readings (.thread t i)).getLastD s.now,
              some ⟨sh.store, sh.late, admissionLock, lock, Function.update p.threads t ph⟩⟩
        | _, _ => none

/-- Opening the store and constructing its executor. Where either transaction
fails no process comes up, though what was committed stays. -/
def reopen (s : Sys) (epoch : Epoch) (fault reviewFault : Fault) : Sys :=
  match transact ⟨epoch, false, none⟩ s.journal fault (fun j => j.startup epoch) with
  | (.error _, _, j) => { s with journal := j }
  | (.ok (), st, j) =>
      match transact st j reviewFault Journal.review with
      | (.error _, _, j') => { s with journal := j' }
      | (.ok (), st', j') =>
          { s with journal := j', process := some ⟨{ st' with reviewed := true }, [], none, none, fun _ => .idle⟩ }

def step (s : Sys) : Action → Option Sys
  | .crash => some { s with process := none }
  | .reopen epoch fault reviewFault =>
      match s.process with
      | some _ => none
      | none => some (reopen s epoch fault reviewFault)
  | .thread t i =>
      match s.process with
      | none => none
      | some p => threadStep s p t i

end MoomooMcp.System
