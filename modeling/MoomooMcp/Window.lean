import MoomooMcp.Threads

namespace MoomooMcp.Gateway

open CriticalSection Machine

/-- The points of a write from which the gateway is locked again, or the halt recorded,
before the just-in-time lock is released. -/
def Phase.willRelock : Phase → Bool
  | .dispatching _ | .marked _ | .calling _ | .relocking _ _ | .failing _ _ _ => true
  | _ => false

/-- An open window is either halted or about to be closed. -/
structure Watched (sh : Shared) (within : Option Phase) : Prop where
  window : sh.window = true → sh.execution.halted = true ∨ ∃ ph, within = some ph ∧ ph.willRelock = true
  cleared : within = some (.recording none) → sh.window = false

/-- Every unlock that a write issues while the service is armed is answered OK. -/
def UnlocksAnswered (s : Sys) (a : Action) (_ : Sys) : Prop :=
  ∀ t w r unreadable, a = .thread t (.reply r unreadable) → s.threads t = .unlocking w →
    s.shared.execution.halted = false → r.issued = true → r = .ok

variable {cfg : Config} {free : Bool} {sh sh' : Shared} {ph ph' : Phase} {i : Input} {w w' : Option Phase}

theorem relock_inside (h : ph.willRelock = true) : ph.inJit = true := by
  cases ph with
  | dispatching _ | marked _ | calling _ | relocking _ _ | failing _ _ _ => rfl
  | _ => cases h

/-- A step that leaves the window and the halt alone, and does not give up a relock. -/
theorem Watched.quiet (h : Watched sh w) (ht : Turn Phase.inJit w ph ph' w') (hwindow : sh'.window = sh.window)
    (hexecution : sh'.execution = sh.execution) (hrelock : ph.willRelock = true → ph'.willRelock = true)
    (hrecording : ph' ≠ .recording none) : Watched sh' w' := by
  constructor
  · intro hopen
    rw [hexecution]
    rw [hwindow] at hopen
    rcases h.window hopen with hhalted | ⟨ph₀, hph₀, hr⟩
    · exact .inl hhalted
    · cases ht with
      | stays _ _ => cases hph₀; exact .inr ⟨ph', rfl, hrelock hr⟩
      | leaves _ hnew => cases hph₀; rw [relock_inside (hrelock hr)] at hnew; cases hnew
      | enters _ _ => cases hph₀
      | apart _ _ => exact .inr ⟨ph₀, hph₀, hr⟩
  · intro hr
    rw [hwindow]
    cases ht with
    | stays _ _ | enters _ _ => exact absurd (Option.some.inj hr) hrecording
    | leaves _ _ => cases hr
    | apart _ _ => exact h.cleared hr

theorem Watched.closed (hwindow : sh.window = false) : Watched sh w :=
  ⟨fun hopen => absurd (hwindow.symm.trans hopen) Bool.false_ne_true, fun _ => hwindow⟩

/-- An open window that no relock of the holder will close is halted. -/
theorem Watched.halted (h : Watched sh (some ph)) (hrelock : ph.willRelock = false) (hopen : sh.window = true) :
    sh.execution.halted = true := by
  rcases h.window hopen with hhalted | ⟨ph₀, hph₀, hr⟩
  · exact hhalted
  · cases hph₀
    rw [hrelock] at hr
    cases hr

theorem fresh_quiet (hrest : ph.resting = true) (hfresh : ph'.fresh = true) :
    ph.willRelock = false ∧ ph' ≠ .recording none := by
  constructor
  · cases ph with
    | idle | done _ => rfl
    | _ => cases hrest
  · rintro rfl
    cases hfresh

theorem exits_quiet (hexits : ph.exits = true) : ph.willRelock = false := by
  cases ph with
  | leaving _ _ | locked _ | suspended _ _ | enforced | closing _ _ => rfl
  | _ => cases hexits

theorem afterWrite_relock (hcred : cfg.hasTradeCredential = true) (w : Write) (result : Result) :
    afterWrite cfg w result = .relocking w result := if_pos hcred

/-- A step of a service with a stored credential keeps the window watched. -/
theorem watched_move (hcred : cfg.hasTradeCredential = true) (hm : Move cfg free sh ph i sh' ph')
    (ht : Turn Phase.inJit w ph ph' w')
    (hanswered : ∀ x r unreadable, i = .reply r unreadable → ph = .unlocking x → sh.execution.halted = false →
      r.issued = true → r = .ok)
    (h : Watched sh w) : Watched sh' w' := by
  cases hm with
  | begun hrest hfresh =>
      obtain ⟨hquiet, hrecording⟩ := fresh_quiet hrest hfresh
      exact h.quiet ht rfl rfl (fun hr => by rw [hquiet] at hr; cases hr) hrecording
  | opened hph =>
      rcases hph with ⟨r, rfl⟩ | ⟨rfl, _⟩
      · exact h.quiet ht rfl rfl nofun nofun
      · exact h.quiet ht rfl rfl nofun nofun
  | resolved hph =>
      rcases hph with ⟨r, rfl⟩ | rfl
      · exact h.quiet ht rfl rfl nofun nofun
      · exact h.quiet ht rfl rfl nofun nofun
  | admitted =>
      rw [if_pos hcred] at ht
      exact h.quiet ht rfl rfl nofun nofun
  | unlocked =>
      obtain ⟨_, rfl⟩ := ht.inner rfl
      exact ⟨fun _ => .inr ⟨_, rfl, rfl⟩, nofun⟩
  | unlockFailed hr =>
      obtain ⟨rfl, rfl⟩ := ht.inner rfl
      refine ⟨fun hopen => .inl ?_, nofun⟩
      cases hhalted : sh.execution.halted with
      | true => rfl
      | false =>
          -- While armed the request was not issued, so the window was open before.
          rcases Bool.or_eq_true_iff.mp hopen with hwas | hissued
          · exact absurd (h.halted rfl hwas) (by simp [hhalted])
          · exact absurd (hanswered _ _ _ rfl rfl hhalted hissued) hr
  | settled hph =>
      rw [afterWrite_relock hcred] at ht
      exact h.quiet ht rfl rfl (fun _ => rfl) nofun
  | relocked => exact .closed rfl
  | relockFailed => exact h.quiet ht rfl rfl (fun _ => rfl) nofun
  | halted =>
      obtain ⟨_, rfl⟩ := ht.inner rfl
      exact ⟨fun _ => .inl rfl, nofun⟩
  | @answered r _ =>
      by_cases hr : r = .ok
      · subst r
        exact .closed rfl
      · obtain ⟨error, he⟩ := lockGateway_failed sh hr
        rw [he] at ht ⊢
        exact h.quiet ht rfl rfl nofun nofun
  | @recorded error _ _ =>
      obtain ⟨rfl, rfl⟩ := ht.inner rfl
      cases error with
      | none => exact .closed (h.cleared rfl)
      | some e => exact ⟨fun hopen => .inl (h.halted rfl hopen), nofun⟩
  | enforced =>
      rename_i r unreadable
      by_cases hr : r = .ok
      · subst r
        exact .closed rfl
      · obtain ⟨error, he⟩ := lockGateway_failed sh hr
        rw [he]
        exact h.quiet ht rfl rfl nofun nofun
  | left hexits =>
      have hquiet := exits_quiet hexits
      exact h.quiet ht rfl rfl (fun hr => by rw [hquiet] at hr; cases hr) nofun
  | submitted hph =>
      rcases hph with ⟨r, rfl⟩ | ⟨rfl, _⟩
      · exact h.quiet ht rfl rfl nofun nofun
      · exact h.quiet ht rfl rfl nofun nofun
  | paperRefused hph =>
      rcases hph with rfl | rfl
      · exact h.quiet ht rfl rfl nofun nofun
      · exact h.quiet ht rfl rfl nofun nofun
  | paperAnswered hph =>
      rcases hph with rfl | rfl
      · exact h.quiet ht rfl rfl nofun nofun
      · exact h.quiet ht rfl rfl nofun nofun
  | marked | started => exact h.quiet ht rfl rfl (fun _ => rfl) nofun
  | rejected | assessed | notAdmitted | joined | suspended | enforcing | skipped | stopped | gated | paperMarked
  | paperStarted =>
      exact h.quiet ht rfl rfl nofun nofun

/-- In a deployment with a stored credential, in every run whose unlocks are answered
while the service is armed: where nobody holds the just-in-time lock, an unlock after the
last acknowledged lock has left a halt behind. -/
theorem window_closed_or_halted (hcred : cfg.hasTradeCredential = true) {s : Sys}
    (h : Reachable cfg UnlocksAnswered s) (hfree : s.jit = none) (hopen : s.shared.window = true) :
    s.shared.execution.halted = true := by
  have hwatched : Watched s.shared s.within := by
    refine h.invariant (P := fun s => Watched s.shared s.within) (fun db => .closed rfl) ?_
    intro u t i v _ hu hstepped hok
    refine watched_move hcred hstepped.move hstepped.jit ?_ hu
    intro x r unreadable hi hph hhalted hissued
    exact hok t x r unreadable (by rw [hi]) hph hhalted hissued
  rcases hwatched.window hopen with hhalted | ⟨ph, hph, _⟩
  · exact hhalted
  · rw [Sys.within, hfree] at hph
    cases hph

def credentialed : Config := ⟨.real, true, false, false⟩

/-- The steps of a REAL write up to its unlock request. -/
def writeUntilUnlock (w : Write) : List Input :=
  [.write w, .proceed none, .proceed none, .check false, .proceed none]

def script (t : Tid) (is : List Input) : List Action := is.map (.thread t)

/-- An order whose relock fails before its request is sent. -/
def relockFailure : List Action :=
  script 0 (writeUntilUnlock ⟨.placeOrder, 7⟩ ++
    [.reply .ok none, .proceed none, .start none, .reply .ok none, .reply (.raised "timeout" false) none,
      .record "2026-01-01T00:00:00Z", .leave])

theorem failed_relock_halts : ∃ s, Machine.run (step credentialed) initial relockFailure = some s ∧
    s.shared.window = true ∧ s.shared.execution.halted = true := by
  have hrun : ∃ s, Machine.run (step credentialed) initial relockFailure = some s ∧ s.jit = none ∧
      s.shared.window = true := ⟨_, rfl, rfl, rfl⟩
  obtain ⟨s, hs, hfree, hopen⟩ := hrun
  refine ⟨s, hs, hopen, window_closed_or_halted rfl (Reaches.of_run ⟨_, rfl⟩ hs ?_) hfree hopen⟩
  intro a ha u v _ t w r unreadable he _ _ hissued
  subst he
  obtain ⟨i, hi, he⟩ := List.mem_map.mp ha
  cases he
  simp only [writeUntilUnlock, List.cons_append, List.nil_append, List.mem_cons, List.not_mem_nil, or_false,
    Input.reply.injEq, reduceCtorEq, false_or] at hi
  rcases hi with ⟨rfl, _⟩ | ⟨rfl, _⟩ | ⟨rfl, _⟩
  · rfl
  · rfl
  · cases hissued

/-- An order whose unlock request raises after it was sent. -/
def unlockFailure : List Action :=
  script 0 (writeUntilUnlock ⟨.placeOrder, 7⟩ ++ [.reply (.raised "timeout" true) none, .leave])

/-- Nothing locks the gateway again and nothing halts. -/
theorem unlock_failure_leaves_window : ∃ s, Machine.run (step credentialed) initial unlockFailure = some s ∧
    s.jit = none ∧ s.shared.window = true ∧ s.shared.execution.halted = false := ⟨_, rfl, rfl, rfl, rfl⟩

end MoomooMcp.Gateway
