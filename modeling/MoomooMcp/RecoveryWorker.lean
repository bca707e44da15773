import Mathlib.Algebra.Order.Ring.Rat
import MoomooMcp.Machine

namespace MoomooMcp.RecoveryWorker

open Machine

/-- How one call of `run_once` ends: it returns, it raises an `Exception`, which
`_run` logs, or it raises another `BaseException`, which ends the thread. -/
inductive Round
  | returned
  | raised
  | fatal
  deriving DecidableEq

/-- Where the worker's thread is in `_run`. -/
inductive Phase
  | unstarted
  | checking
  | clearing
  | entering
  | running
  | parking
  | waiting (deadline : ℚ)
  | finished
  deriving DecidableEq

/-- Where the caller of `stop` is. -/
inductive Closing
  | open
  | stopping
  | joining (deadline : ℚ)
  | closed
  deriving DecidableEq

structure Sys where
  clock : ℚ := 0
  stop : Bool := false
  wake : Bool := false
  phase : Phase := .unstarted
  closing : Closing := .open
  deriving DecidableEq

/-- The steps of the worker's own thread. -/
inductive Work
  | check
  | clear
  | begin
  | finish (round : Round)
  | park
  | awaken
  | expire
  deriving DecidableEq

inductive Action
  | tick (now : ℚ)
  | start
  | wake
  | close
  | work (w : Work)
  deriving DecidableEq

namespace Sys

def work (s : Sys) : Work → Option Sys
  | .check =>
      if s.phase = .checking then
        if s.stop then some { s with phase := .finished } else some { s with phase := .clearing }
      else none
  | .clear => if s.phase = .clearing then some { s with wake := false, phase := .entering } else none
  | .begin => if s.phase = .entering then some { s with phase := .running } else none
  | .finish round =>
      if s.phase = .running then
        match round with
        | .returned | .raised => some { s with phase := .parking }
        | .fatal => some { s with phase := .finished }
      else none
  | .park => if s.phase = .parking then some { s with phase := .waiting (s.clock + 1) } else none
  | .awaken =>
      match s.phase with
      | .waiting _ => if s.wake then some { s with phase := .checking } else none
      | _ => none
  | .expire =>
      match s.phase with
      | .waiting deadline => if deadline ≤ s.clock then some { s with phase := .checking } else none
      | _ => none

/-- The next statement of `stop`: set the stop event, set the wake event, then
wait at most five seconds for the thread. -/
def close (s : Sys) : Option Sys :=
  match s.closing with
  | .open | .closed => some { s with stop := true, closing := .stopping }
  | .stopping => some { s with wake := true, closing := .joining (s.clock + 5) }
  | .joining deadline =>
      if s.phase = .unstarted ∨ s.phase = .finished ∨ deadline ≤ s.clock then some { s with closing := .closed } else none

def step (s : Sys) : Action → Option Sys
  | .tick now => if s.clock ≤ now then some { s with clock := now } else none
  | .start => if s.phase = .unstarted then some { s with phase := .checking } else some s
  | .wake => some { s with wake := true }
  | .close => s.close
  | .work w => s.work w

end Sys

/-- The states of a worker that was built with neither event set. -/
abbrev Reachable (s : Sys) : Prop := Reaches (fun s => s = {}) Sys.step free s

namespace Sys

variable {s t : Sys}

/-- What a step does, by name. -/
inductive Move (s : Sys) : Action → Sys → Prop
  | ticked {now} (h : s.clock ≤ now) : Move s (.tick now) { s with clock := now }
  | started (h : s.phase = .unstarted) : Move s .start { s with phase := .checking }
  | already (h : s.phase ≠ .unstarted) : Move s .start s
  | woken : Move s .wake { s with wake := true }
  | stopped (h : s.closing = .open ∨ s.closing = .closed) : Move s .close { s with stop := true, closing := .stopping }
  | roused (h : s.closing = .stopping) : Move s .close { s with wake := true, closing := .joining (s.clock + 5) }
  | joined {deadline} (h : s.closing = .joining deadline)
      (hend : s.phase = .unstarted ∨ s.phase = .finished ∨ deadline ≤ s.clock) : Move s .close { s with closing := .closed }
  | ended (h : s.phase = .checking) (hstop : s.stop = true) : Move s (.work .check) { s with phase := .finished }
  | checked (h : s.phase = .checking) (hstop : s.stop = false) : Move s (.work .check) { s with phase := .clearing }
  | cleared (h : s.phase = .clearing) : Move s (.work .clear) { s with wake := false, phase := .entering }
  | began (h : s.phase = .entering) : Move s (.work .begin) { s with phase := .running }
  | rested {round} (h : s.phase = .running) (hround : round ≠ .fatal) :
      Move s (.work (.finish round)) { s with phase := .parking }
  | died (h : s.phase = .running) : Move s (.work (.finish .fatal)) { s with phase := .finished }
  | parked (h : s.phase = .parking) : Move s (.work .park) { s with phase := .waiting (s.clock + 1) }
  | awoke {deadline} (h : s.phase = .waiting deadline) (hwake : s.wake = true) :
      Move s (.work .awaken) { s with phase := .checking }
  | expired {deadline} (h : s.phase = .waiting deadline) (hdue : deadline ≤ s.clock) :
      Move s (.work .expire) { s with phase := .checking }

theorem work_move {w : Work} (h : s.work w = some t) : Move s (.work w) t := by
  cases w with
  | check =>
      obtain ⟨hphase, h⟩ := Option.ite_none_right_eq_some.mp h
      split at h
      · next hstop => cases h; exact .ended hphase hstop
      · next hstop => cases h; exact .checked hphase (Bool.eq_false_of_not_eq_true hstop)
  | clear =>
      obtain ⟨hphase, rfl⟩ : s.phase = .clearing ∧ _ = t := by simpa [work] using h
      exact .cleared hphase
  | begin =>
      obtain ⟨hphase, rfl⟩ : s.phase = .entering ∧ _ = t := by simpa [work] using h
      exact .began hphase
  | finish round =>
      obtain ⟨hphase, h⟩ := Option.ite_none_right_eq_some.mp h
      cases round with
      | returned => cases h; exact .rested hphase (by simp)
      | raised => cases h; exact .rested hphase (by simp)
      | fatal => cases h; exact .died hphase
  | park =>
      obtain ⟨hphase, rfl⟩ : s.phase = .parking ∧ _ = t := by simpa [work] using h
      exact .parked hphase
  | awaken =>
      simp only [work] at h
      split at h
      · next deadline hphase =>
          obtain ⟨hwake, rfl⟩ : s.wake = true ∧ _ = t := by simpa using h
          exact .awoke hphase hwake
      · cases h
  | expire =>
      simp only [work] at h
      split at h
      · next deadline hphase =>
          obtain ⟨hdue, rfl⟩ : deadline ≤ s.clock ∧ _ = t := by simpa using h
          exact .expired hphase hdue
      · cases h

theorem close_move (h : s.close = some t) : Move s .close t := by
  rw [close] at h
  split at h
  · next hopen => cases h; exact .stopped (.inl hopen)
  · next hclosed => cases h; exact .stopped (.inr hclosed)
  · next hstopping => cases h; exact .roused hstopping
  · next deadline hjoining =>
      obtain ⟨hend, h⟩ := Option.ite_none_right_eq_some.mp h
      cases h
      exact .joined hjoining hend

theorem step_move {a : Action} (h : s.step a = some t) : Move s a t := by
  cases a with
  | tick now =>
      obtain ⟨hnow, rfl⟩ : s.clock ≤ now ∧ _ = t := by simpa [step] using h
      exact .ticked hnow
  | start =>
      by_cases hphase : s.phase = .unstarted
      · simp only [step, if_pos hphase, Option.some.injEq] at h
        exact h ▸ .started hphase
      · simp only [step, if_neg hphase, Option.some.injEq] at h
        exact h ▸ .already hphase
  | wake => cases h; exact .woken
  | close => exact close_move h
  | work w => exact work_move h

/-- The last wake has been served, is still in the event, or was taken off it by
the round that is about to begin. -/
def Heard (s : Sys) : Prop := s.wake = true ∨ s.phase = .entering

/-- The worker steps up to the next round, counted from where the thread is. -/
def distance (s : Sys) : ℕ :=
  match s.phase with
  | .unstarted => 4
  | .entering => 1
  | .clearing => 2
  | .checking => 3
  | .waiting _ => 4
  | .parking => 5
  | .running => 6
  | .finished => 1

/-- The thread has a step of its own that waits for nothing: neither for the
clock, nor for another thread, nor for the call of `run_once`. -/
def Runnable (s : Sys) : Prop :=
  ∃ w t, (∀ round, w ≠ .finish round) ∧ s.work w = some t

theorem runnable_of (hwait : ∀ deadline, s.phase = .waiting deadline → s.wake = true ∨ deadline ≤ s.clock)
    (hstarted : s.phase ≠ .unstarted) (hrunning : s.phase ≠ .running) (hfinished : s.phase ≠ .finished) :
    s.Runnable := by
  cases hphase : s.phase with
  | unstarted => exact absurd hphase hstarted
  | running => exact absurd hphase hrunning
  | finished => exact absurd hphase hfinished
  | checking =>
      cases hstop : s.stop with
      | true => exact ⟨.check, { s with phase := .finished }, by simp, by simp [work, hphase, hstop]⟩
      | false => exact ⟨.check, { s with phase := .clearing }, by simp, by simp [work, hphase, hstop]⟩
  | clearing => exact ⟨.clear, _, by simp, if_pos hphase⟩
  | entering => exact ⟨.begin, _, by simp, if_pos hphase⟩
  | parking => exact ⟨.park, _, by simp, if_pos hphase⟩
  | waiting deadline =>
      rcases hwait deadline hphase with hwake | hdue
      · exact ⟨.awaken, { s with phase := .checking }, by simp, by simp [work, hphase, hwake]⟩
      · exact ⟨.expire, { s with phase := .checking }, by simp, by simp [work, hphase, hdue]⟩

theorem runnable_of_heard (h : s.Heard) : s.phase ≠ .unstarted → s.phase ≠ .running → s.phase ≠ .finished →
    s.Runnable := by
  apply runnable_of
  intro deadline hphase
  rcases h with hwake | hentering
  · exact .inl hwake
  · rw [hphase] at hentering; cases hentering

theorem Move.heard {a : Action} (h : Move s a t) (hs : s.Heard) (ha : a ≠ .work .begin) : t.Heard := by
  cases h with
  | ticked | already | stopped | joined => exact hs
  | woken | roused => exact .inl rfl
  | cleared => exact .inr rfl
  | began => exact absurd rfl ha
  | started h | ended h | checked h | rested h | died h | parked h | awoke h | expired h =>
      rcases hs with hwake | hentering
      · exact .inl hwake
      · rw [h] at hentering; cases hentering

end Sys

/-- A step of the worker's own thread. -/
def Action.isWork : Action → Bool
  | .work _ => true
  | _ => false

namespace Sys

variable {s t : Sys}

/-- A step of the thread brings the next round one step closer, and no other
step takes it further away. -/
theorem Move.distance {a : Action} (h : Move s a t) (ha : a ≠ .work .begin) :
    t.distance + (if a.isWork then 1 else 0) ≤ s.distance := by
  cases h with
  | ticked | already | woken | stopped | roused | joined => rfl
  | began => exact absurd rfl ha
  | started h | ended h | checked h | cleared h | rested h | died h | parked h | awoke h | expired h =>
      simp [Sys.distance, Action.isWork, h]

theorem distance_pos (s : Sys) : 1 ≤ s.distance := by
  rw [Sys.distance]
  split <;> omega

theorem distance_le (s : Sys) : s.distance ≤ 6 := by
  rw [Sys.distance]
  split <;> omega

theorem path_heard {as : List Action} (h : Path step free s as t) (hs : s.Heard)
    (has : .work .begin ∉ as) : t.Heard := by
  induction h with
  | nil => exact hs
  | cons hstep _ _ ih =>
      obtain ⟨ha, hrest⟩ := not_or.mp (List.mem_cons.not.mp has)
      exact ih ((step_move hstep).heard hs (Ne.symm ha)) hrest

theorem path_distance {as : List Action} (h : Path step free s as t) (has : .work .begin ∉ as) :
    t.distance + as.countP Action.isWork ≤ s.distance := by
  induction h with
  | nil => exact le_rfl
  | cons hstep _ _ ih =>
      obtain ⟨ha, hrest⟩ := not_or.mp (List.mem_cons.not.mp has)
      have hone := (step_move hstep).distance (Ne.symm ha)
      have hmore := ih hrest
      rw [List.countP_cons]
      omega

/-- The worker steps left once the stop event is set. -/
def remaining (s : Sys) : ℕ :=
  match s.phase with
  | .finished => 0
  | .checking => 1
  | .unstarted => 2
  | .waiting _ => 2
  | .parking => 3
  | .running => 4
  | .entering => 5
  | .clearing => 6

theorem remaining_eq_zero : s.remaining = 0 ↔ s.phase = .finished := by
  rw [remaining]
  split <;> simp_all

/-- The rounds that may still begin once the stop event is set. -/
def rounds (s : Sys) : ℕ :=
  match s.phase with
  | .clearing | .entering => 1
  | _ => 0

theorem rounds_le (s : Sys) : s.rounds ≤ 1 := by
  rw [rounds]
  split <;> omega

theorem remaining_le (s : Sys) : s.remaining ≤ 6 := by
  rw [remaining]
  split <;> omega

theorem Move.final {a : Action} (h : Move s a t) (hs : s.stop = true) :
    t.stop = true ∧ t.remaining + (if a.isWork then 1 else 0) ≤ s.remaining ∧
      t.rounds + (if a = .work .begin then 1 else 0) ≤ s.rounds := by
  cases h with
  | ticked | already | woken | roused | joined => exact ⟨hs, le_rfl, le_rfl⟩
  | stopped => exact ⟨rfl, le_rfl, le_rfl⟩
  | checked h hstop => rw [hs] at hstop; cases hstop
  | started h | ended h | cleared h | began h | rested h | died h | parked h | awoke h | expired h =>
      simp [Sys.remaining, Sys.rounds, Action.isWork, h, hs]

theorem path_stopped {as : List Action} (h : Path step free s as t) (hs : s.stop = true) :
    t.stop = true ∧ t.remaining + as.countP Action.isWork ≤ s.remaining ∧
      t.rounds + as.count (.work .begin) ≤ s.rounds := by
  induction h with
  | nil => exact ⟨hs, le_rfl, le_rfl⟩
  | cons hstep _ _ ih =>
      obtain ⟨hstop, hleft, hrounds⟩ := (step_move hstep).final hs
      obtain ⟨ht, hmore, hlater⟩ := ih hstop
      rw [List.countP_cons, List.count_cons]
      simp only [beq_iff_eq]
      exact ⟨ht, by omega, by omega⟩

/-- What the waits of the worker and of `stop` never exceed. -/
def Timely (s : Sys) : Prop :=
  (∀ deadline, s.phase = .waiting deadline → deadline ≤ s.clock + 1) ∧
    (∀ deadline, s.closing = .joining deadline → deadline ≤ s.clock + 5)

theorem Move.timely {a : Action} (h : Move s a t) (hs : s.Timely) : t.Timely := by
  obtain ⟨hwait, hjoin⟩ := hs
  cases h with
  | ticked hnow =>
      exact ⟨fun d hd => (hwait d hd).trans (add_le_add_left hnow 1), fun d hd => (hjoin d hd).trans (add_le_add_left hnow 5)⟩
  | already | woken => exact ⟨hwait, hjoin⟩
  | stopped | joined => exact ⟨hwait, fun d hd => (by cases hd)⟩
  | roused => exact ⟨hwait, fun d hd => by cases hd; exact le_rfl⟩
  | parked => exact ⟨fun d hd => by cases hd; exact le_rfl, hjoin⟩
  | started | ended | checked | cleared | began | rested | died | awoke | expired =>
      exact ⟨fun d hd => (by cases hd), hjoin⟩

theorem reachable_timely (h : Reachable s) : s.Timely :=
  h.induction (P := Timely) (fun s hs => by subst hs; exact ⟨fun _ hd => (by cases hd), fun _ hd => (by cases hd)⟩)
    (fun _ _ _ _ hs hstep _ => (step_move hstep).timely hs)

/-- A thread that is neither inside `run_once` nor ended can move within a second. -/
theorem runnable_within (h : s.Timely) {now : ℚ} (hnow : s.clock + 1 ≤ now) : s.phase ≠ .unstarted →
    s.phase ≠ .running → s.phase ≠ .finished → Runnable { s with clock := now } := by
  apply runnable_of (s := { s with clock := now })
  intro deadline hphase
  exact .inr ((h.1 deadline hphase).trans hnow)

end Sys
end MoomooMcp.RecoveryWorker
