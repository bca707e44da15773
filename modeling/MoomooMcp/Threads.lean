import MoomooMcp.Gateway
import MoomooMcp.Reservations

namespace MoomooMcp.Gateway

open TradingControls CriticalSection Machine

/-- Where a thread may be once it has taken up a call. -/
def Phase.fresh : Phase → Bool
  | .opening _ | .submitted _ | .locking | .pausing _ | .connected _ | .done _ => true
  | _ => false

/-- A point from which a write of this process leaves without another gateway request. -/
def Phase.exits : Phase → Bool
  | .leaving _ _ | .locked _ | .suspended _ _ | .enforced | .closing _ _ => true
  | _ => false

/-- Whether an access to the controls fails for a reason of its own. -/
def unavailable (st : Store) (fault : Bool) : Bool := st.closed || st.failed || fault

/-- Everything a step of a thread can do. -/
inductive Move (cfg : Config) (free : Bool) (sh : Shared) : Phase → Input → Shared → Phase → Prop
  | begun {ph i ph'} (hrest : ph.resting = true) (hfresh : ph'.fresh = true) : Move cfg free sh ph i sh ph'
  | opened {w failure ph'} (hph : (∃ r, ph' = .done r) ∨ ph' = .queued w ∧ cfg.mode = .real) :
      Move cfg free sh (.opening w) (.proceed failure) sh ph'
  | resolved {w failure ph'} (hph : (∃ r, ph' = .done r) ∨ ph' = .assessing w) :
      Move cfg free sh (.queued w) (.proceed failure) sh ph'
  | rejected {w fault st result} (hexposing : w.operation.addsExposure = true)
      (hcause : sh.execution.halted = true ∨
        cfg.controls = true ∧ (unavailable sh.store fault = true ∨ paused sh.db (.real, w.account) = true)) :
      Move cfg free sh (.assessing w) (.check fault) { sh with store := st } (.leaving w result)
  | assessed {w fault st} (hclear : w.operation.addsExposure = true →
        sh.execution.halted = false ∧ (cfg.controls = true → paused sh.db (.real, w.account) = false)) :
      Move cfg free sh (.assessing w) (.check fault) { sh with store := st } (.admitting w)
  | notAdmitted {w e result} : Move cfg free sh (.admitting w) (.proceed (some e)) sh (.leaving w result)
  | admitted {w} : Move cfg free sh (.admitting w) (.proceed none) sh
      (if cfg.hasTradeCredential then .unlocking w else .dispatching w)
  | unlocked {w unreadable} : Move cfg free sh (.unlocking w) (.reply .ok unreadable)
      { sh with window := true } (.dispatching w)
  | unlockFailed {w r unreadable result} (hr : r ≠ .ok) : Move cfg free sh (.unlocking w) (.reply r unreadable)
      { sh with window := sh.window || r.issued } (.leaving w result)
  | marked {w} : Move cfg free sh (.dispatching w) (.proceed none) sh (.marked w)
  | started {w} : Move cfg free sh (.marked w) (.start none) sh (.calling w)
  | settled {w ph i result} (hph : ph = .dispatching w ∨ ph = .marked w ∨ ph = .calling w) :
      Move cfg free sh ph i sh (afterWrite cfg w result)
  | relocked {w result unreadable} : Move cfg free sh (.relocking w result) (.reply .ok unreadable)
      { sh with window := false, owed := false } (.leaving w result)
  | relockFailed {w result r unreadable error} (hr : r ≠ .ok) : Move cfg free sh (.relocking w result)
      (.reply r unreadable) { sh with owed := false } (.failing w result error)
  | halted {w result error now} : Move cfg free sh (.failing w result error) (.record now)
      { sh with execution := sh.execution.recordRelockFailure now error } (.leaving w (relockResult result error))
  | answered {r unreadable} : Move cfg free sh .locking (.reply r unreadable) (lockGateway sh r).1
      (.recording (lockGateway sh r).2)
  | recorded {error now result} : Move cfg free sh (.recording error) (.record now)
      { sh with execution := sh.execution.recordLockResult error } (.locked result)
  | joined {r} : Move cfg free sh (.pausing r) (.proceed none) sh (.suspending r)
  | suspended {r fault readFault now result st db}
      (hset : setPaused sh.store sh.db fault readFault now r.environment r.paused r.operatorId r.reason r.account =
        (result, st, db)) :
      Move cfg free sh (.suspending r) (.commit fault readFault now) { sh with store := st, db := db }
        (.suspended r result)
  | enforcing {reconnecting} (hfree : free = true) : Move cfg free sh (.connected reconnecting) (.proceed none) sh
      .enforcing
  | skipped {reconnecting} (hbusy : free = false) : Move cfg free sh (.connected reconnecting) (.proceed none)
      { sh with owed := sh.owed || reconnecting } (.done (.ok ()))
  | enforced {r unreadable} : Move cfg free sh .enforcing (.reply r unreadable) (lockGateway sh r).1 .enforced
  | left {ph result} (hexits : ph.exits = true) : Move cfg free sh ph .leave sh (.done result)
  | submitted {w failure ph'} (hph : (∃ r, ph' = .done r) ∨ ph' = .preparing w ∧ cfg.paper = true) :
      Move cfg free sh (.submitted w) (.proceed failure) sh ph'
  | paperRefused {w ph i result} (hph : ph = .preparing w ∨ ph = .marking w) :
      Move cfg free sh ph i sh (.closing w result)
  | stopped {w fault st result} (hkind : w.kind ≠ .cancel) (hcontrols : cfg.controls = true)
      (hcause : unavailable sh.store fault = true ∨ paused sh.db (.simulate, w.account) = true) :
      Move cfg free sh (.preparing w) (.check fault) { sh with store := st } (.closing w result)
  | gated {w fault st} (hclear : w.kind ≠ .cancel → cfg.controls = true →
        paused sh.db (.simulate, w.account) = false) :
      Move cfg free sh (.preparing w) (.check fault) { sh with store := st } (.marking w)
  | paperMarked {w} : Move cfg free sh (.marking w) (.proceed none) sh (.sending w)
  | paperStarted {w} : Move cfg free sh (.sending w) (.start none) sh (.requesting w)
  | paperAnswered {w ph i result} (hph : ph = .sending w ∨ ph = .requesting w) :
      Move cfg free sh ph i sh (.closing w result)

variable {cfg : Config} {free : Bool} {sh sh' : Shared} {ph ph' : Phase} {i : Input}

theorem checkNewRisk_ok {st st' : Store} {db : Database} {fault : Bool} {env : Environment} {account : Account}
    (h : checkNewRisk st db fault env account = (.ok (), st')) : paused db (env, account) = false := by
  unfold checkNewRisk at h
  split at h
  · cases h
  · cases h
  · next hp =>
      unfold pauseState at hp
      split at hp
      next ht =>
        cases hp
        rcases transact_cases ht with ⟨⟨_, he⟩, _⟩ | ⟨_, hb, _, hbody⟩
        · cases he
        · cases hb
          exact congrArg Prod.fst (Except.ok.inj hbody)

theorem checkNewRisk_error {st st' : Store} {db : Database} {fault : Bool} {env : Environment} {account : Account}
    {e : Exc} (h : checkNewRisk st db fault env account = (.error e, st')) :
    unavailable st fault = true ∨ paused db (env, account) = true := by
  unfold checkNewRisk at h
  split at h
  · next hp =>
      unfold pauseState transact at hp
      cases hclosed : st.closed || st.failed with
      | true => exact .inl (by simp [unavailable, hclosed])
      | false =>
          cases fault with
          | true => exact .inl (by simp [unavailable])
          | false => simp [hclosed] at hp
  · next hp =>
      unfold pauseState at hp
      split at hp
      next ht =>
        cases hp
        rcases transact_cases ht with ⟨⟨_, he⟩, _⟩ | ⟨_, hb, _, hbody⟩
        · cases he
        · cases hb
          exact .inr (congrArg Prod.fst (Except.ok.inj hbody))
  · cases h

theorem checkExecutionHalt_error {operation : String} {x : Execution} {e : Exc}
    (h : checkExecutionHalt operation x = .error e) : x.halted = true := by
  unfold checkExecutionHalt at h
  split at h
  · next hx => exact hx
  · cases h

theorem checkExecutionHalt_ok {operation : String} {x : Execution} (h : checkExecutionHalt operation x = .ok ()) :
    x.halted = false := by
  unfold checkExecutionHalt at h
  split at h
  · cases h
  · next hx => simpa using hx

theorem open_cases {w : Write} {failure : Option Exc} :
    (∃ r, open_ cfg sh w failure = .done r) ∨ open_ cfg sh w failure = .queued w ∧ cfg.mode = .real := by
  unfold open_
  split
  · exact .inl ⟨_, rfl⟩
  · next hmode =>
      have hreal := not_not.mp hmode
      split
      · exact .inl ⟨_, rfl⟩
      · split
        · split
          · exact .inl ⟨_, rfl⟩
          · exact .inr ⟨rfl, hreal⟩
        · exact .inr ⟨rfl, hreal⟩

theorem assess_move {w : Write} {fault : Bool} (h : assess cfg sh w fault = (sh', ph')) :
    Move cfg free sh (.assessing w) (.check fault) sh' ph' := by
  unfold assess at h
  split at h
  · next hexposing =>
      split at h
      · next hhalt =>
          cases h
          exact .rejected hexposing (.inl (checkExecutionHalt_error hhalt))
      · next hhalt =>
          have harmed := checkExecutionHalt_ok hhalt
          split at h
          · next hcontrols =>
              split at h
              · next hrisk =>
                  cases h
                  exact .rejected hexposing (.inr ⟨hcontrols, checkNewRisk_error hrisk⟩)
              · next hrisk =>
                  cases h
                  exact .assessed (fun _ => ⟨harmed, fun _ => checkNewRisk_ok hrisk⟩)
          · next hcontrols =>
              cases h
              exact .assessed (fun _ => ⟨harmed, fun hc => absurd hc hcontrols⟩)
  · next hreducing =>
      cases h
      exact .assessed (fun hexposing => absurd hexposing hreducing)

theorem Reply.error_none {request : String} {r : Reply} (h : r.error request = none) : r = .ok := by
  cases r with
  | ok => rfl
  | refused _ | raised _ _ => cases h

theorem Reply.error_some {request error : String} {r : Reply} (h : r.error request = some error) : r ≠ .ok := by
  rintro rfl
  cases h

theorem unlock_move {w : Write} {r : Reply} {unreadable : Option String} (h : unlock sh w r = (sh', ph')) :
    Move cfg free sh (.unlocking w) (.reply r unreadable) sh' ph' := by
  unfold unlock at h
  split at h
  · next hr =>
      cases Reply.error_none hr
      cases h
      rw [show (sh.window || Reply.ok.issued) = true from Bool.or_true _]
      exact .unlocked
  · next hr =>
      cases h
      exact .unlockFailed (Reply.error_some hr)

theorem lockGateway_failed (sh : Shared) {r : Reply} (hr : r ≠ .ok) :
    ∃ error, lockGateway sh r = ({ sh with owed := false }, some error) := by
  cases r with
  | ok => exact absurd rfl hr
  | refused _ | raised _ _ => exact ⟨_, rfl⟩

theorem relock_move {w : Write} {result : Result} {r : Reply} {unreadable : Option String}
    (h : relock sh w result r = (sh', ph')) :
    Move cfg free sh (.relocking w result) (.reply r unreadable) sh' ph' := by
  unfold relock at h
  by_cases hr : r = .ok
  · subst r
    cases h
    exact .relocked
  · obtain ⟨error, he⟩ := lockGateway_failed sh hr
    rw [he] at h
    cases h
    exact .relockFailed hr

theorem submit_cases {w : PaperWrite} {failure : Option Exc} :
    (∃ r, submit cfg w failure = .done r) ∨ submit cfg w failure = .preparing w ∧ cfg.paper = true := by
  unfold submit
  split
  · exact .inl ⟨_, rfl⟩
  · next hmode =>
      split
      · exact .inl ⟨_, rfl⟩
      · exact .inr ⟨rfl, by simpa using (not_or.mp hmode).2⟩

theorem gate_move {w : PaperWrite} {fault : Bool} (h : gate cfg sh w fault = (sh', ph')) :
    Move cfg free sh (.preparing w) (.check fault) sh' ph' := by
  unfold gate at h
  split at h
  · next hkind =>
      split at h
      · next hrisk =>
          cases h
          exact .stopped hkind.1 hkind.2 (checkNewRisk_error hrisk)
      · next hrisk =>
          cases h
          exact .gated (fun _ _ => checkNewRisk_ok hrisk)
  · next hkind =>
      cases h
      exact .gated (fun hk hc => absurd ⟨hk, hc⟩ hkind)

theorem begin_move {ph'' : Phase} (hfresh : ph''.fresh = true)
    (h : (if ph.resting then some (sh, ph'') else none) = some (sh', ph')) : Move cfg free sh ph i sh' ph' := by
  split at h
  · next hrest => cases h; exact .begun hrest hfresh
  · cases h

theorem act_move (h : act cfg sh free ph i = some (sh', ph')) : Move cfg free sh ph i sh' ph' := by
  unfold act at h
  split at h
  · cases h; exact .opened open_cases
  · cases h
    split
    · exact .resolved (.inl ⟨_, rfl⟩)
    · exact .resolved (.inr rfl)
  · exact assess_move (Option.some.inj h)
  · cases h
    split
    · exact .notAdmitted
    · exact .admitted
  · exact unlock_move (Option.some.inj h)
  · cases h
    split
    · exact .settled (.inl rfl)
    · exact .marked
  · cases h; exact .started
  · cases h; exact .settled (.inr (.inl rfl))
  · cases h; exact .settled (.inr (.inr rfl))
  · exact relock_move (Option.some.inj h)
  · cases h; exact .halted
  · cases h; exact .left rfl
  · cases h; exact .answered
  · cases h; exact .recorded
  · cases h; exact .left rfl
  · cases h; exact .joined
  · next r fault readFault now =>
      rcases hset : setPaused sh.store sh.db fault readFault now r.environment r.paused r.operatorId r.reason r.account
        with ⟨result, st, db⟩
      simp only [suspend, hset] at h
      cases h
      exact .suspended hset
  · cases h; exact .left rfl
  · cases hf : free with
    | true => rw [hf] at h; cases h; exact .enforcing rfl
    | false => rw [hf] at h; cases h; exact .skipped rfl
  · cases h; exact .enforced
  · cases h; exact .left rfl
  · cases h; exact .submitted submit_cases
  · cases h; exact .paperRefused (.inl rfl)
  · exact gate_move (Option.some.inj h)
  · cases h
    split
    · exact .paperRefused (.inr rfl)
    · exact .paperMarked
  · cases h; exact .paperStarted
  · cases h; exact .paperAnswered (.inl rfl)
  · cases h; exact .paperAnswered (.inr rfl)
  · cases h; exact .left rfl
  · exact begin_move rfl h
  · exact begin_move rfl h
  · exact begin_move rfl h
  · exact begin_move (by split <;> rfl) h
  · exact begin_move (by split <;> rfl) h
  · cases h

/-- Both locks are held by exactly the thread inside. -/
structure Locked (cfg : Config) (s : Sys) : Prop where
  jit : Held Phase.inJit s.jit s.threads
  paper : Held (Phase.inPaper cfg) s.paperLock s.threads

def Sys.within (s : Sys) : Option Phase := s.jit.map s.threads

def Sys.withinPaper (s : Sys) : Option Phase := s.paperLock.map s.threads

variable {s s' : Sys} {t : Tid}

theorem locked_started (cfg : Config) (db : Database) : Locked cfg (started db) :=
  ⟨held_outside (fun _ => rfl), held_outside (fun _ => rfl)⟩

/-- What a step of a thread does to the shared state, to the thread itself, and to both locks. -/
structure Stepped (cfg : Config) (s : Sys) (t : Tid) (i : Input) (s' : Sys) : Prop where
  move : Move cfg s.within.isNone s.shared (s.threads t) i s'.shared (s'.threads t)
  others : ∀ u, u ≠ t → s'.threads u = s.threads u
  jit : Turn Phase.inJit s.within (s.threads t) (s'.threads t) s'.within
  paper : Turn (Phase.inPaper cfg) s.withinPaper (s.threads t) (s'.threads t) s'.withinPaper
  locked : Locked cfg s'

theorem thread_stepped (hl : Locked cfg s) (h : step cfg s (.thread t i) = some s') : Stepped cfg s t i s' := by
  simp only [step, threadStep] at h
  split at h
  · cases h
  · next sh ph hact =>
      split at h
      · next jit paperLock hjit hpaper =>
          cases h
          have hfree : s.within.isNone = s.jit.isNone := Option.isNone_map
          have hself : Function.update s.threads t ph t = ph := Function.update_self t ph s.threads
          constructor
          · show Move cfg s.within.isNone s.shared (s.threads t) i sh (Function.update s.threads t ph t)
            rw [hself, hfree]
            exact act_move hact
          · intro u hu
            exact Function.update_of_ne hu ph s.threads
          · show Turn Phase.inJit s.within (s.threads t) (Function.update s.threads t ph t) _
            rw [hself]
            exact hl.jit.turn hjit
          · show Turn (Phase.inPaper cfg) s.withinPaper (s.threads t) (Function.update s.threads t ph t) _
            rw [hself]
            exact hl.paper.turn hpaper
          · exact ⟨hl.jit.claim hjit, hl.paper.claim hpaper⟩
      · cases h

/-- The states of the service over its runs. A process starts on whatever its
predecessors left in the controls. -/
def Reachable (cfg : Config) (ok : Sys → Action → Sys → Prop) (s : Sys) : Prop :=
  Reaches (fun s => ∃ db, s = started db) (step cfg) ok s

variable {ok : Sys → Action → Sys → Prop}

theorem Reachable.locked (h : Reachable cfg ok s) : Locked cfg s := by
  refine Reaches.induction h (fun s ⟨db, hs⟩ => by rw [hs]; exact locked_started cfg db) ?_
  intro u a v _ hu hstep _
  cases a with
  | thread t i => exact (thread_stepped hu hstep).locked
  | restart => cases hstep; exact locked_started cfg _

/-- What no step of a thread breaks holds in every reachable state if it holds of a
process that has just started. -/
theorem Reachable.invariant {P : Sys → Prop} (h : Reachable cfg ok s) (hstart : ∀ db, P (started db))
    (hstep : ∀ s t i s', Reachable cfg ok s → P s → Stepped cfg s t i s' → ok s (.thread t i) s' → P s') : P s := by
  refine Reaches.induction h (fun s ⟨db, hs⟩ => by rw [hs]; exact hstart db) ?_
  intro u a v hu hp hnext hok
  cases a with
  | thread t i => exact hstep u t i v hu hp (thread_stepped (Reachable.locked hu) hnext) hok
  | restart => cases hnext; exact hstart _

end MoomooMcp.Gateway
