import MoomooMcp.Moves
import MoomooMcp.System

namespace MoomooMcp.System

open ExecutionStore Executor CriticalSection

/-- Everything a step of the deployment can do. -/
inductive Transition (s : Sys) : Action → Sys → Prop
  | thread {p t i sh ph admissionLock lock} (hp : s.process = some p) (hwait : waits p i = false)
      (hmove : Move (shared s p) i (p.threads t) sh ph)
      (hadmission : claim Phase.inAdmission p.admissionLock t (p.threads t) ph = some admissionLock)
      (hlock : claim Phase.inLock p.lock t (p.threads t) ph = some lock) :
      Transition s (.thread t i) ⟨sh.journal, sh.starts, (readings (.thread t i)).getLastD s.now,
        some ⟨sh.store, sh.late, admissionLock, lock, Function.update p.threads t ph⟩⟩
  | crash : Transition s .crash { s with process := none }
  | unopened {epoch fault fault'} (hp : s.process = none) : Transition s (.reopen epoch fault fault') s
  | unreviewed {epoch fault fault' j} (hp : s.process = none) (hstartup : Startup epoch s.journal j) :
      Transition s (.reopen epoch fault fault') { s with journal := j }
  | reviewed {epoch fault fault' j j'} (hp : s.process = none) (hstartup : Startup epoch s.journal j)
      (hreview : Reviews j j') : Transition s (.reopen epoch fault fault') { s with journal := j' }
  | opened {epoch fault fault' j j'} (hp : s.process = none) (hstartup : Startup epoch s.journal j)
      (hreview : Reviews j j') : Transition s (.reopen epoch fault fault')
        { s with journal := j', process := some ⟨⟨epoch, true, none⟩, [], none, none, fun _ => .idle⟩ }

variable {s s' : Sys} {a : Action}

theorem reopen_transition {epoch : Epoch} {fault fault' : Fault} (hp : s.process = none) :
    Transition s (.reopen epoch fault fault') (reopen s epoch fault fault') := by
  unfold reopen
  split
  · next hs =>
      obtain ⟨_, ⟨rfl, _⟩ | ⟨_, hb, _⟩⟩ := transact_cases hs
      · exact .unopened hp
      · exact .unreviewed hp (startup_ok hb)
  · next st j hs =>
      obtain ⟨hb, rfl, _⟩ := transact_ok hs
      split
      · next hr =>
          obtain ⟨_, ⟨rfl, _⟩ | ⟨_, hb', _⟩⟩ := transact_cases hr
          · exact .unreviewed hp (startup_ok hb)
          · exact .reviewed hp (startup_ok hb) (review_ok hb')
      · next hr =>
          obtain ⟨hb', rfl, _⟩ := transact_ok hr
          exact .opened hp (startup_ok hb) (review_ok hb')

theorem step_transition (h : step s a = some s') : Transition s a s' := by
  unfold step at h
  split at h
  · cases h; exact .crash
  · split at h
    · cases h
    · next hp => cases h; exact reopen_transition hp
  · split at h
    · cases h
    · next t i _ p hp =>
        unfold threadStep at h
        split at h
        · cases h
        · next hwait =>
            split at h
            · cases h
            · next sh ph hact =>
                split at h
                · next hadmission hlock =>
                    cases h
                    exact .thread hp (by simpa using hwait) (act_move hact) hadmission hlock
                · cases h

/-- One thread of the running process moved, and every other one stayed where it was. -/
structure Moved (s : Sys) (p : Process) (t : Tid) (i : Input) (s' : Sys) (p' : Process) : Prop where
  process : s.process = some p
  move : Move (shared s p) i (p.threads t) (shared s' p') (p'.threads t)
  others : ∀ u, u ≠ t → p'.threads u = p.threads u
  now : s'.now = (readings (.thread t i)).getLastD s.now

/-- A running process got there by a step of one thread, or was just opened. -/
theorem Transition.process_cases (h : Transition s a s') {p' : Process} (hp' : s'.process = some p') :
    (∃ p t i, a = .thread t i ∧ Moved s p t i s' p') ∨ ∀ t, p'.threads t = .idle := by
  cases h with
  | @thread p t i sh ph _ _ hp _ hmove =>
      cases hp'
      refine .inl ⟨p, t, i, rfl, hp, ?_, fun u hu => Function.update_of_ne hu _ _, rfl⟩
      dsimp only
      rw [Function.update_self]
      exact hmove
  | crash => cases hp'
  | unopened hp => rw [hp] at hp'; cases hp'
  | unreviewed hp => rw [hp] at hp'; cases hp'
  | reviewed hp => rw [hp] at hp'; cases hp'
  | opened =>
      cases hp'
      exact .inr (fun _ => rfl)

/-- The reachable states of a deployment of one environment, under a condition on the steps. -/
abbrev Reachable (env : Environment) (ok : Sys → Action → Sys → Prop) : Sys → Prop :=
  Machine.Reaches (fun s => s = initial env) step ok

theorem reachable_of_run {env : Environment} (acts : List Action)
    (h : Machine.run step (initial env) acts = some s) : Reachable env Machine.free s :=
  .of_run rfl h (fun _ _ _ _ _ => trivial)

end MoomooMcp.System
