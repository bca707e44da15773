import MoomooMcp.Window

namespace MoomooMcp.Gateway

open CriticalSection TradingControls Machine

/-- The points inside the just-in-time lock that come before a call of `_lock_gateway`. -/
def Phase.beforeLock : Phase → Bool
  | .assessing _ | .admitting _ | .unlocking _ | .dispatching _ | .marked _ | .calling _ | .relocking _ _
  | .locking | .enforcing => true
  | _ => false

/-- The points of a REAL write between its early checks and the end of its lock. -/
def Phase.mutating : Phase → Bool
  | .queued _ | .assessing _ | .admitting _ | .unlocking _ | .dispatching _ | .marked _ | .calling _ | .relocking _ _
  | .failing _ _ _ | .leaving _ _ => true
  | _ => false

/-- A lock that a reconnect left to the holder is still ahead of the holder. -/
def Entrusted (sh : Shared) (within : Option Phase) : Prop :=
  sh.owed = true → ∃ ph, within = some ph ∧ ph.beforeLock = true

/-- A reconnect that finds the just-in-time lock held finds its holder before a lock call. -/
def skipsBeforeLock (s : Sys) : Action → Bool
  | .thread t (.proceed none) =>
      match s.threads t with
      | .connected true => s.jit.all (fun u => (s.threads u).beforeLock)
      | _ => true
  | _ => true

/-- A write that a reconnect left its lock to is not turned away inside the lock: neither
by the halt, by the operator or by the controls, nor by its quota, nor by the gateway's
answer to its unlock. -/
def notTurnedAway (cfg : Config) (s : Sys) : Action → Bool
  | .restart => true
  | .thread t i =>
      !s.shared.owed ||
        match s.threads t, i with
        | .assessing w, .check fault =>
            !w.operation.addsExposure || (!s.shared.execution.halted &&
              (!cfg.controls || (!unavailable s.shared.store fault && !paused s.shared.db (.real, w.account))))
        | .admitting _, .proceed failure => failure.isNone
        | .unlocking _, .reply .ok _ => true
        | .unlocking _, .reply _ _ => false
        | _, _ => true

def Covered (cfg : Config) (s : Sys) (a : Action) (_ : Sys) : Prop :=
  skipsBeforeLock s a = true ∧ notTurnedAway cfg s a = true

instance (cfg : Config) (s : Sys) (a : Action) (s' : Sys) : Decidable (Covered cfg s a s') :=
  inferInstanceAs (Decidable (_ ∧ _))

variable {cfg : Config} {free : Bool} {sh sh' : Shared} {ph ph' : Phase} {i : Input} {w w' : Option Phase}

theorem beforeLock_inside (h : ph.beforeLock = true) : ph.inJit = true := by
  cases ph with
  | assessing _ | admitting _ | unlocking _ | dispatching _ | marked _ | calling _ | relocking _ _ | locking | enforcing =>
      rfl
  | _ => cases h

/-- A step that leaves what is owed alone, and does not pass by a lock call. -/
theorem Entrusted.quiet (h : Entrusted sh w) (ht : Turn Phase.inJit w ph ph' w') (howed : sh'.owed = sh.owed)
    (hlock : ph.beforeLock = true → sh.owed = true → ph'.beforeLock = true) : Entrusted sh' w' := by
  intro ho
  rw [howed] at ho
  obtain ⟨ph₀, hph₀, hb⟩ := h ho
  cases ht with
  | stays _ _ => cases hph₀; exact ⟨ph', rfl, hlock hb ho⟩
  | leaves _ hnew => cases hph₀; rw [beforeLock_inside (hlock hb ho)] at hnew; cases hnew
  | enters _ _ => cases hph₀
  | apart _ _ => exact ⟨ph₀, hph₀, hb⟩

theorem Entrusted.settled (howed : sh.owed = false) : Entrusted sh w :=
  fun ho => absurd (howed.symm.trans ho) Bool.false_ne_true

theorem lockGateway_owed (sh : Shared) (r : Reply) : (lockGateway sh r).1.owed = false := by
  cases r with
  | ok | refused _ | raised _ _ => rfl

theorem resting_unlocked (hrest : ph.resting = true) : ph.beforeLock = false := by
  cases ph with
  | idle | done _ => rfl
  | _ => cases hrest

theorem exits_locked (hexits : ph.exits = true) : ph.beforeLock = false := by
  cases ph with
  | leaving _ _ | locked _ | suspended _ _ | enforced | closing _ _ => rfl
  | _ => cases hexits

/-- A covered step keeps the lock that is owed ahead of the holder. -/
theorem entrusted_move (hcred : ph.mutating = true → cfg.hasTradeCredential = true)
    (hm : Move cfg free sh ph i sh' ph') (ht : Turn Phase.inJit w ph ph' w') (hfree : free = w.isNone)
    (hskip : i = .proceed none → ph = .connected true → ∀ ph₀, w = some ph₀ → ph₀.beforeLock = true)
    (hassessed : ∀ x fault, i = .check fault → ph = .assessing x → sh.owed = true → x.operation.addsExposure = true →
      sh.execution.halted = false ∧
        (cfg.controls = true → unavailable sh.store fault = false ∧ paused sh.db (.real, x.account) = false))
    (hadmitted : ∀ x failure, i = .proceed failure → ph = .admitting x → sh.owed = true → failure = none)
    (hunlocked : ∀ x r unreadable, i = .reply r unreadable → ph = .unlocking x → sh.owed = true → r = .ok)
    (h : Entrusted sh w) : Entrusted sh' w' := by
  cases hm with
  | begun hrest _ =>
      have hlock := resting_unlocked hrest
      exact h.quiet ht rfl (fun hb _ => by rw [hlock] at hb; cases hb)
  | opened hph =>
      rcases hph with ⟨r, rfl⟩ | ⟨rfl, _⟩
      · exact h.quiet ht rfl nofun
      · exact h.quiet ht rfl nofun
  | resolved hph =>
      rcases hph with ⟨r, rfl⟩ | rfl
      · exact h.quiet ht rfl nofun
      · exact h.quiet ht rfl nofun
  | @rejected x fault _ _ hexposing hcause =>
      refine h.quiet ht rfl (fun _ howed => ?_)
      obtain ⟨hhalted, hcontrols⟩ := hassessed x fault rfl rfl howed hexposing
      rcases hcause with hc | ⟨hc, hu | hp⟩
      · rw [hhalted] at hc; cases hc
      · rw [(hcontrols hc).1] at hu; cases hu
      · rw [(hcontrols hc).2] at hp; cases hp
  | assessed => exact h.quiet ht rfl (fun _ _ => rfl)
  | notAdmitted =>
      refine h.quiet ht rfl (fun _ howed => ?_)
      cases hadmitted _ _ rfl rfl howed
  | admitted =>
      rw [if_pos (hcred rfl)] at ht
      exact h.quiet ht rfl (fun _ _ => rfl)
  | unlocked => exact h.quiet ht rfl (fun _ _ => rfl)
  | unlockFailed hr => exact h.quiet ht rfl (fun _ howed => absurd (hunlocked _ _ _ rfl rfl howed) hr)
  | marked | started => exact h.quiet ht rfl (fun _ _ => rfl)
  | settled hph =>
      have hc : cfg.hasTradeCredential = true := by
        rcases hph with rfl | rfl | rfl <;> exact hcred rfl
      rw [afterWrite_relock hc] at ht
      exact h.quiet ht rfl (fun _ _ => rfl)
  | relocked | relockFailed => exact .settled rfl
  | answered => exact .settled (lockGateway_owed _ _)
  | enforced => exact .settled (lockGateway_owed _ _)
  | skipped hbusy =>
      rename_i reconnecting
      rw [ht.outer rfl rfl]
      cases hw : w with
      | none => rw [hbusy, hw] at hfree; cases hfree
      | some ph₀ =>
          intro howed
          cases reconnecting with
          | true => exact ⟨ph₀, rfl, hskip rfl rfl ph₀ hw⟩
          | false =>
              rw [hw] at h
              exact h (by simpa using howed)
  | left hexits =>
      have hlock := exits_locked hexits
      exact h.quiet ht rfl (fun hb _ => by rw [hlock] at hb; cases hb)
  | submitted hph =>
      rcases hph with ⟨r, rfl⟩ | ⟨rfl, _⟩
      · exact h.quiet ht rfl nofun
      · exact h.quiet ht rfl nofun
  | paperRefused hph =>
      rcases hph with rfl | rfl
      · exact h.quiet ht rfl nofun
      · exact h.quiet ht rfl nofun
  | paperAnswered hph =>
      rcases hph with rfl | rfl
      · exact h.quiet ht rfl nofun
      · exact h.quiet ht rfl nofun
  | halted | recorded | joined | suspended | enforcing | stopped | gated | paperMarked | paperStarted =>
      exact h.quiet ht rfl nofun

/-- Only a REAL deployment gets a write past its early checks. -/
theorem mutating_move (hm : Move cfg free sh ph i sh' ph') (h : ph.mutating = true → cfg.mode = .real)
    (hnew : ph'.mutating = true) : cfg.mode = .real := by
  cases hm with
  | begun hrest hfresh =>
      cases ph' with
      | opening _ | submitted _ | locking | pausing _ | connected _ | done _ => cases hnew
      | _ => cases hfresh
  | opened hph =>
      rcases hph with ⟨r, rfl⟩ | ⟨rfl, hreal⟩
      · cases hnew
      · exact hreal
  | submitted hph =>
      rcases hph with ⟨r, rfl⟩ | ⟨rfl, _⟩ <;> cases hnew
  | settled hph => rcases hph with rfl | rfl | rfl <;> exact h rfl
  | resolved | rejected | assessed | notAdmitted | admitted | unlocked | unlockFailed | marked | started | relocked
  | relockFailed | halted => exact h rfl
  | answered | recorded | joined | suspended | enforcing | skipped | enforced | left | paperRefused | stopped | gated
  | paperMarked | paperStarted | paperAnswered => cases hnew

theorem Reachable.mutating {ok : Sys → Action → Sys → Prop} {s : Sys} (h : Reachable cfg ok s) (t : Tid)
    (ht : (s.threads t).mutating = true) : cfg.mode = .real := by
  refine Reachable.invariant (P := fun s => ∀ t, (s.threads t).mutating = true → cfg.mode = .real) h nofun ?_ t ht
  intro u t' i v _ hp hstepped _ t ht
  by_cases he : t = t'
  · subst t'
    exact mutating_move hstepped.move (hp t) ht
  · rw [hstepped.others t he] at ht
    exact hp t ht

/-- In a deployment that locks the gateway at rest, in every covered run: where nobody
holds the just-in-time lock, no reconnect is still waiting for its lock. -/
theorem reconnect_never_unlocked (hrest : cfg.locksGatewayAtRest = true) {s : Sys}
    (h : Reachable cfg (Covered cfg) s) (hfree : s.jit = none) : s.shared.owed = false := by
  have hcred : cfg.mode = .real → cfg.hasTradeCredential = true := by
    intro hreal
    simpa [Config.locksGatewayAtRest, hreal] using hrest
  have hentrusted : Entrusted s.shared s.within := by
    refine h.invariant (P := fun s => Entrusted s.shared s.within) (fun db => .settled rfl) ?_
    intro u t i v hu hp hstepped hok
    refine entrusted_move (fun hm => hcred (hu.mutating t hm)) hstepped.move hstepped.jit rfl ?_ ?_ ?_ ?_ hp
    · intro hi hph ph₀ hw
      obtain ⟨holder, hholder, rfl⟩ := Option.map_eq_some_iff.mp hw
      have hskip := hok.1
      simp only [skipsBeforeLock, hi, hph, hholder, Option.all_some] at hskip
      exact hskip
    · intro x fault hi hph howed hexposing
      have hturn := hok.2
      simp only [notTurnedAway, hi, hph, howed, hexposing, Bool.not_true, Bool.false_or, Bool.and_eq_true,
        Bool.not_eq_true', Bool.or_eq_true] at hturn
      refine ⟨hturn.1, fun hcontrols => ?_⟩
      rcases hturn.2 with hc | hclear
      · rw [hcontrols] at hc; cases hc
      · exact hclear
    · intro x failure hi hph howed
      have hturn := hok.2
      simp only [notTurnedAway, hi, hph, howed, Bool.not_true, Bool.false_or] at hturn
      exact Option.isNone_iff_eq_none.mp hturn
    · intro x r unreadable hi hph howed
      have hturn := hok.2
      simp only [notTurnedAway, hi, hph, howed, Bool.not_true, Bool.false_or] at hturn
      cases r with
      | ok => rfl
      | refused _ | raised _ _ => cases hturn
  cases howed : s.shared.owed with
  | false => rfl
  | true =>
      obtain ⟨ph, hph, _⟩ := hentrusted howed
      rw [Sys.within, hfree] at hph
      cases hph

/-- The gateway reconnects while a cancellation has it unlocked. -/
def reconnectDuringWrite : List Action :=
  script 0 (writeUntilUnlock ⟨.cancelOrder, 7⟩ ++ [.reply .ok none, .proceed none]) ++
    script 1 [.connect true, .proceed none] ++
    script 0 [.start none, .reply .ok none, .reply .ok none, .leave]

theorem write_locks_for_reconnect : ∃ s,
    Machine.run (restrict (step credentialed) (Covered credentialed)) initial reconnectDuringWrite = some s ∧
      s.shared.owed = false := by
  have hrun : ∃ s, Machine.run (restrict (step credentialed) (Covered credentialed)) initial reconnectDuringWrite =
      some s ∧ s.jit = none := ⟨_, rfl, rfl⟩
  obtain ⟨s, hs, hfree⟩ := hrun
  exact ⟨s, hs, reconnect_never_unlocked rfl ⟨initial, _, ⟨_, rfl⟩, path_of_restricted hs⟩ hfree⟩

def operated : Config := { credentialed with controls := true }

/-- The gateway reconnects while the operator pauses the execution. -/
def reconnectDuringPause : List Action :=
  script 0 [.setPaused ⟨"REAL", true, "operator", "maintenance", "0"⟩] ++
    script 1 [.connect true, .proceed none] ++
    script 0 [.proceed none, .commit false false 0, .leave]

/-- The lock is left to the operator's call, which never makes it. -/
theorem pause_loses_reconnect_lock : operated.locksGatewayAtRest = true ∧ ∃ s,
    Machine.run (step operated) initial reconnectDuringPause = some s ∧ s.jit = none ∧ s.shared.owed = true := by
  have hrun : (Machine.run (step operated) initial reconnectDuringPause).any
      (fun s => s.jit.isNone && s.shared.owed) = true := by
    decide +kernel
  obtain ⟨s, hs, hp⟩ := (Option.any_eq_true _ _).mp hrun
  obtain ⟨hfree, howed⟩ := Bool.and_eq_true_iff.mp hp
  exact ⟨rfl, s, hs, Option.isNone_iff_eq_none.mp hfree, howed⟩

end MoomooMcp.Gateway
