import Mathlib.Data.List.TakeWhile
import MoomooMcp.AtRest

namespace MoomooMcp.Gateway

open CriticalSection TradingControls Machine

/-- What happens to the halt: a relock failure is recorded, or a successful `lock_trade` is. -/
inductive HaltEvent
  | failed (now : String)
  | rearmed
  deriving DecidableEq, Repr

def haltEventAt : Phase → Input → Option HaltEvent
  | .failing _ _ _, .record now => some (.failed now)
  | .recording none, .record _ => some .rearmed
  | _, _ => none

def haltEvent (s : Sys) : Action → Option HaltEvent
  | .thread t i => haltEventAt (s.threads t) i
  | .restart => none

/-- The events of a run, in order. -/
def haltEvents (cfg : Config) : Sys → List Action → List HaltEvent
  | _, [] => []
  | s, a :: as => (haltEvent s a).toList ++ ((step cfg s a).map (fun t => haltEvents cfg t as)).getD []

/-- The time of the first failure recorded after the last successful `lock_trade`. -/
def episodeStart (events : List HaltEvent) : Option String :=
  (events.reverse.takeWhile (· ≠ .rearmed)).getLast?.bind (fun
    | .failed now => some now
    | .rearmed => none)

theorem episodeStart_rearmed (events : List HaltEvent) : episodeStart (events ++ [.rearmed]) = none := by
  simp [episodeStart]

theorem episodeStart_failed (events : List HaltEvent) (now : String) :
    episodeStart (events ++ [.failed now]) = some ((episodeStart events).getD now) := by
  unfold episodeStart
  rw [List.reverse_append, List.reverse_singleton, List.singleton_append,
    List.takeWhile_cons_of_pos (by simp)]
  cases hl : (events.reverse.takeWhile (· ≠ .rearmed)).getLast? with
  | none =>
      rw [List.getLast?_eq_none_iff.mp hl]
      rfl
  | some e =>
      have hne : e ≠ .rearmed := by
        have hmem := List.mem_of_getLast? hl
        simpa using List.mem_takeWhile_imp hmem
      rw [List.getLast?_cons, hl]
      cases e with
      | failed first => rfl
      | rearmed => exact absurd rfl hne

/-- The write a thread is past the authoritative halt check with, and has not sent yet. -/
def Phase.cleared : Phase → Option Write
  | .admitting w | .unlocking w | .dispatching w | .marked w => some w
  | _ => none

/-- The action starts the SDK call of a REAL write. -/
def Starts (s : Sys) (a : Action) (w : Write) : Prop := ∃ t, a = .thread t (.start none) ∧ s.threads t = .marked w

/-- A write with new exposure that has passed the check finds the service armed. -/
def Armed (sh : Shared) (within : Option Phase) : Prop :=
  ∀ ph w, within = some ph → ph.cleared = some w → w.operation.addsExposure = true → sh.execution.halted = false

variable {cfg : Config} {free : Bool} {sh sh' : Shared} {ph ph' : Phase} {i : Input} {w w' : Option Phase}

theorem cleared_inside {x : Write} (h : ph.cleared = some x) : ph.inJit = true := by
  cases ph with
  | admitting _ | unlocking _ | dispatching _ | marked _ => rfl
  | _ => cases h

/-- A step that leaves the halt alone and clears nothing new. -/
theorem Armed.quiet (h : Armed sh w) (ht : Turn Phase.inJit w ph ph' w') (hexecution : sh'.execution = sh.execution)
    (hcleared : ∀ x, ph'.cleared = some x → ph.cleared = some x) : Armed sh' w' := by
  intro ph₀ x hph₀ hx hexposing
  rw [hexecution]
  cases ht with
  | stays _ _ => cases hph₀; exact h ph x rfl (hcleared x hx) hexposing
  | leaves _ _ => cases hph₀
  | enters hold _ => cases hph₀; rw [cleared_inside (hcleared x hx)] at hold; cases hold
  | apart _ _ => exact h ph₀ x hph₀ hx hexposing

theorem Armed.uncleared (ht : Turn Phase.inJit w ph ph' w') (hold : ph.inJit = true) (hcleared : ph'.cleared = none) :
    Armed sh' w' := by
  intro ph₀ x hph₀ hx _
  obtain ⟨_, rfl⟩ := ht.inner hold
  split at hph₀
  · cases hph₀; rw [hcleared] at hx; cases hx
  · cases hph₀

theorem fresh_uncleared (hfresh : ph.fresh = true) : ph.cleared = none := by
  cases ph with
  | opening _ | submitted _ | locking | pausing _ | connected _ | done _ => rfl
  | _ => cases hfresh

theorem lockGateway_execution (sh : Shared) (r : Reply) : (lockGateway sh r).1.execution = sh.execution := by
  cases r with
  | ok | refused _ | raised _ _ => rfl

theorem armed_move (hm : Move cfg free sh ph i sh' ph') (ht : Turn Phase.inJit w ph ph' w') (h : Armed sh w) :
    Armed sh' w' := by
  cases hm with
  | begun _ hfresh =>
      have hnone := fresh_uncleared hfresh
      exact h.quiet ht rfl (fun x hx => by rw [hnone] at hx; cases hx)
  | opened hph =>
      rcases hph with ⟨r, rfl⟩ | ⟨rfl, _⟩
      · exact h.quiet ht rfl nofun
      · exact h.quiet ht rfl nofun
  | resolved hph =>
      rcases hph with ⟨r, rfl⟩ | rfl
      · exact h.quiet ht rfl nofun
      · exact h.quiet ht rfl nofun
  | assessed hclear =>
      obtain ⟨_, rfl⟩ := ht.inner rfl
      intro ph₀ x hph₀ hx hexposing
      cases hph₀
      cases hx
      exact (hclear hexposing).1
  | admitted =>
      refine h.quiet ht rfl (fun x hx => ?_)
      split at hx <;> exact hx
  | unlocked | marked => exact h.quiet ht rfl (fun _ hx => hx)
  | settled hph =>
      refine h.quiet ht rfl (fun x hx => ?_)
      unfold afterWrite at hx
      split at hx <;> cases hx
  | halted => exact .uncleared ht rfl rfl
  | recorded => exact .uncleared ht rfl rfl
  | answered => exact h.quiet ht (lockGateway_execution _ _) nofun
  | enforced => exact h.quiet ht (lockGateway_execution _ _) nofun
  | submitted hph =>
      rcases hph with ⟨r, rfl⟩ | ⟨rfl, _⟩
      · exact h.quiet ht rfl nofun
      · exact h.quiet ht rfl nofun
  | rejected | notAdmitted | unlockFailed | started | relocked | relockFailed | joined | suspended | enforcing | skipped
  | left | paperRefused | stopped | gated | paperMarked | paperStarted | paperAnswered =>
      exact h.quiet ht rfl nofun

/-- Where a relock failure is in force, no write with new exposure starts its SDK call. -/
theorem halted_starts_nothing {ok : Sys → Action → Sys → Prop} {s : Sys} (h : Reachable cfg ok s)
    (hhalted : s.shared.execution.halted = true) {a : Action} {x : Write} (hstart : Starts s a x) :
    x.operation.addsExposure = false := by
  obtain ⟨t, _, hph⟩ := hstart
  have harmed : Armed s.shared s.within := by
    refine h.invariant (P := fun s => Armed s.shared s.within) ?_
      (fun _ _ _ _ _ hu hstepped _ => armed_move hstepped.move hstepped.jit hu)
    intro db ph y hnone
    cases hnone
  have hholder : s.jit = some t := h.locked.jit.holder_eq (by rw [hph]; rfl)
  have hwithin : s.within = some (.marked x) := by
    rw [Sys.within, hholder, Option.map_some, hph]
  cases hexposing : x.operation.addsExposure with
  | false => rfl
  | true =>
      rw [harmed _ x hwithin rfl hexposing] at hhalted
      cases hhalted

/-- The start of a halt after one more event. -/
def haltedAfter (since : Option String) : Option HaltEvent → Option String
  | none => since
  | some (.failed now) => some (since.getD now)
  | some .rearmed => none

theorem resting_event (hrest : ph.resting = true) : haltEventAt ph i = none := by
  cases ph with
  | idle | done _ => rfl
  | _ => cases hrest

theorem exits_event (hexits : ph.exits = true) : haltEventAt ph i = none := by
  cases ph with
  | leaving _ _ | locked _ | suspended _ _ | enforced | closing _ _ => rfl
  | _ => cases hexits

theorem halted_since_move (hm : Move cfg free sh ph i sh' ph') :
    sh'.execution.haltedSince = haltedAfter sh.execution.haltedSince (haltEventAt ph i) := by
  cases hm with
  | begun hrest _ => rw [resting_event hrest]; rfl
  | left hexits => rw [exits_event hexits]; rfl
  | settled hph => rcases hph with rfl | rfl | rfl <;> rfl
  | paperRefused hph => rcases hph with rfl | rfl <;> rfl
  | paperAnswered hph => rcases hph with rfl | rfl <;> rfl
  | @recorded error _ _ =>
      cases error with
      | none => rfl
      | some _ => rfl
  | answered => rw [lockGateway_execution]; rfl
  | enforced => rw [lockGateway_execution]; rfl
  | halted | opened | resolved | rejected | assessed | notAdmitted | admitted | unlocked | unlockFailed | marked | started
  | relocked | relockFailed | joined | suspended | enforcing | skipped | submitted | stopped | gated | paperMarked
  | paperStarted => rfl

theorem halted_since_run {s t : Sys} {as : List Action} (hl : Locked cfg s) (hone : ∀ a ∈ as, a ≠ .restart)
    (hrun : Machine.run (step cfg) s as = some t) :
    t.shared.execution.haltedSince =
      (haltEvents cfg s as).foldl (fun since e => haltedAfter since (some e)) s.shared.execution.haltedSince := by
  induction as generalizing s with
  | nil => cases hrun; rfl
  | cons a as ih =>
      obtain ⟨u, hu, hrest⟩ := Option.bind_eq_some_iff.mp hrun
      cases a with
      | restart => exact absurd rfl (hone .restart List.mem_cons_self)
      | thread tid i =>
          have hstepped := thread_stepped hl hu
          have hsince := halted_since_move hstepped.move
          have hevents : haltEvents cfg s (.thread tid i :: as) =
              (haltEventAt (s.threads tid) i).toList ++ haltEvents cfg u as := by
            simp only [haltEvents, hu, haltEvent, Option.map_some, Option.getD_some]
          rw [ih hstepped.locked (fun b hb => hone b (List.mem_cons_of_mem _ hb)) hrest, hevents, List.foldl_append,
            hsince]
          cases haltEventAt (s.threads tid) i <;> rfl

theorem haltedAfter_episode (events : List HaltEvent) :
    events.foldl (fun since e => haltedAfter since (some e)) none = episodeStart events := by
  induction events using List.reverseRecOn with
  | nil => rfl
  | append_singleton events e ih =>
      rw [List.foldl_append, ih]
      cases e with
      | failed now => exact (episodeStart_failed events now).symm
      | rearmed => exact (episodeStart_rearmed events).symm

/-- The points at which the halt is looked at, with the write it is looked at for. -/
def Phase.checked : Phase → Option Write
  | .opening w | .assessing w => some w
  | _ => none

/-- No thread but one that checks a write with new exposure takes notice of the halt. -/
theorem act_blind (hchecked : ∀ x, ph.checked = some x → x.operation.addsExposure = false) (x : Execution) :
    (act cfg { sh with execution := x } free ph i).map Prod.snd = (act cfg sh free ph i).map Prod.snd := by
  cases ph with
  | opening w =>
      have hreduces := hchecked w rfl
      cases i with
      | proceed failure => simp [act, open_, hreduces]
      | _ => rfl
  | assessing w =>
      have hreduces := hchecked w rfl
      cases i with
      | check fault => simp [act, assess, hreduces]
      | _ => rfl
  | preparing w =>
      cases i with
      | check fault =>
          simp only [act, gate]
          split
          · split <;> rfl
          · rfl
      | proceed failure => cases failure <;> rfl
      | _ => rfl
  | relocking w result =>
      cases i with
      | reply r unreadable => cases r <;> rfl
      | _ => rfl
  | locking =>
      cases i with
      | reply r unreadable => cases r <;> rfl
      | _ => rfl
  | marked w | sending w =>
      cases i with
      | start refused => cases refused <;> rfl
      | _ => rfl
  | pausing r =>
      cases i with
      | proceed failure => cases failure <;> rfl
      | _ => rfl
  | suspending r =>
      cases i with
      | commit fault readFault now => simp only [act, suspend, Option.map_some]
      | _ => rfl
  | connected reconnecting =>
      cases i with
      | proceed failure => cases failure <;> cases free <;> rfl
      | _ => rfl
  | idle | done _ | queued _ | admitting _ | unlocking _ | dispatching _ | calling _ | failing _ _ _ | leaving _ _
  | recording _ | locked _ | suspended _ _ | enforcing | enforced | submitted _ | marking _ | requesting _
  | closing _ _ => cases i <;> rfl

/-- In every run of one process: the halt starts with the first relock failure recorded
after the last successful `lock_trade` and lasts until the next one. While it lasts no
write with new exposure starts its SDK call, whenever it passed its early check, and
every other thread goes on as it would without a halt. -/
theorem halt_stops_exposure {db : Database} {as : List Action} {s : Sys}
    (hrun : Machine.run (step cfg) (started db) as = some s) (hone : ∀ a ∈ as, a ≠ .restart) :
    s.shared.execution.haltedSince = episodeStart (haltEvents cfg (started db) as) ∧
    ((episodeStart (haltEvents cfg (started db) as)).isSome = true →
      ∀ a w, Starts s a w → w.operation.addsExposure = false) ∧
    ∀ t i x, (∀ w, (s.threads t).checked = some w → w.operation.addsExposure = false) →
      (act cfg { s.shared with execution := x } s.jit.isNone (s.threads t) i).map Prod.snd =
        (act cfg s.shared s.jit.isNone (s.threads t) i).map Prod.snd := by
  have hsince : s.shared.execution.haltedSince = episodeStart (haltEvents cfg (started db) as) := by
    rw [halted_since_run (locked_started cfg db) hone hrun, ← haltedAfter_episode]
    rfl
  have hreachable : Reachable cfg free s := Reaches.of_run ⟨db, rfl⟩ hrun (fun _ _ _ _ _ => trivial)
  refine ⟨hsince, fun hhalted a w hstart => ?_, fun t i x hchecked => act_blind hchecked x⟩
  rw [← hsince] at hhalted
  exact halted_starts_nothing hreachable hhalted hstart

/-- An order passes its early check, and only then another one's relock fails. -/
def haltBehindCheck : List Action := script 1 [.write ⟨.placeComboOrder, 7⟩, .proceed none] ++ relockFailure

theorem queued_order_halted : ∃ s, Machine.run (step credentialed) initial haltBehindCheck = some s ∧
    s.threads 1 = .queued ⟨.placeComboOrder, 7⟩ ∧
    s.shared.execution.haltedSince = some "2026-01-01T00:00:00Z" ∧
    ∀ a w, Starts s a w → w.operation.addsExposure = false := by
  have hrun : ∃ s, Machine.run (step credentialed) initial haltBehindCheck = some s ∧
      s.threads 1 = .queued ⟨.placeComboOrder, 7⟩ := ⟨_, rfl, rfl⟩
  obtain ⟨s, hs, hqueued⟩ := hrun
  have hone : ∀ a ∈ haltBehindCheck, a ≠ .restart := by
    intro a ha
    rcases List.mem_append.mp ha with hm | hm <;> obtain ⟨i, _, rfl⟩ := List.mem_map.mp hm <;> exact nofun
  obtain ⟨hsince, hstarts, _⟩ := halt_stops_exposure hs hone
  exact ⟨s, hs, hqueued, hsince.trans rfl, hstarts rfl⟩

end MoomooMcp.Gateway
