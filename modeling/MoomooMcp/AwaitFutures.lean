import Mathlib.Algebra.Order.Ring.Rat
import Mathlib.Data.Fintype.Card
import MoomooMcp.Machine

namespace MoomooMcp.AwaitFutures

open Machine

/-- Where a pending future is: its work, and the callback that counts it. -/
inductive Slot
  | running
  | done
  | armed
  | firing
  | passing
  | queued
  | ticked
  | dropped
  deriving DecidableEq

/-- The future has its callback. -/
def Slot.registered : Slot → Bool
  | .running | .done => false
  | _ => true

/-- The work behind the future has ended. -/
def Slot.ended : Slot → Bool
  | .running | .armed => false
  | _ => true

/-- A callback is on its way to the loop. -/
def Slot.moving : Slot → Bool
  | .firing | .passing | .queued => true
  | _ => false

/-- The callback has passed its check, or its tick was scheduled. -/
def Slot.through : Slot → Bool
  | .passing | .queued | .ticked => true
  | _ => false

inductive End
  | skipped
  | finished
  | timedOut
  | cancelled
  deriving DecidableEq

/-- Where the call of `await_futures` is. -/
inductive Phase
  | registering (k : ℕ)
  | waiting
  | leaving (how : End)
  | returned (how : End)
  deriving DecidableEq

/-- The futures below this one have their callbacks. -/
def Phase.reached (n : ℕ) : Phase → ℕ
  | .registering k => k
  | .returned .skipped => 0
  | _ => n

structure Sys (n : ℕ) where
  slot : Fin n → Slot
  outstanding : ℕ
  finished : Bool := false
  detached : Bool := false
  closed : Bool := false
  phase : Phase

/-- The call, for the futures that are not done when it looks. -/
def start (n : ℕ) (timeout : ℚ) : Sys n where
  slot := fun _ => .running
  outstanding := n
  phase := if n = 0 ∨ timeout ≤ 0 then .returned .skipped else .registering 0

/-- The steps of the loop's thread, of the workers and of the clock. -/
inductive Action (n : ℕ)
  | register
  | complete (i : Fin n)
  | check (i : Fin n)
  | schedule (i : Fin n)
  | tick (i : Fin n)
  | wake
  | expire
  | cancel
  | detach
  | close

namespace Sys

variable {n : ℕ}

def at_ (s : Sys n) (i : Fin n) (slot : Slot) : Sys n := { s with slot := Function.update s.slot i slot }

/-- `add_done_callback` of the next future. The callback of one that is done by now
runs at once, on the thread of the loop. -/
def register (s : Sys n) : Option (Sys n) :=
  match s.phase with
  | .registering k =>
      if h : k < n then
        some { s.at_ ⟨k, h⟩ (if s.slot ⟨k, h⟩ = .running then .armed else .queued) with phase := .registering (k + 1) }
      else some { s with phase := .waiting }
  | _ => none

/-- A tick runs on the loop while the call is suspended or over. -/
def tick (s : Sys n) (i : Fin n) : Option (Sys n) :=
  if s.slot i = .queued ∧ s.closed = false then
    match s.phase with
    | .waiting | .returned _ =>
        some { s.at_ i .ticked with
          outstanding := s.outstanding - 1
          finished := s.finished || s.outstanding - 1 == 0 }
    | _ => none
  else none

/-- The call is resumed by the event, by its deadline or by a cancellation. -/
def resume (s : Sys n) (how : End) : Option (Sys n) :=
  if s.phase = .waiting ∧ s.closed = false then some { s with phase := .leaving how } else none

def step (s : Sys n) : Action n → Option (Sys n)
  | .register => s.register
  | .complete i =>
      match s.slot i with
      | .running => some (s.at_ i .done)
      | .armed => some (s.at_ i .firing)
      | _ => none
  | .check i =>
      if s.slot i = .firing then some (s.at_ i (if s.detached || s.closed then .dropped else .passing)) else none
  | .schedule i => if s.slot i = .passing then some (s.at_ i (if s.closed then .dropped else .queued)) else none
  | .tick i => s.tick i
  | .wake => if s.finished then s.resume .finished else none
  | .expire => s.resume .timedOut
  | .cancel => s.resume .cancelled
  | .detach =>
      match s.phase with
      | .leaving how => some { s with phase := .returned how, detached := true }
      | _ => none
  | .close =>
      match s.phase with
      | .waiting | .returned _ => some { s with closed := true }
      | _ => none

/-- What a step does, by name. -/
inductive Move (s : Sys n) : Sys n → Prop
  | armed {k} (hphase : s.phase = .registering k) (h : k < n) (hslot : s.slot ⟨k, h⟩ = .running) :
      Move s { s.at_ ⟨k, h⟩ .armed with phase := .registering (k + 1) }
  | counted {k} (hphase : s.phase = .registering k) (h : k < n) (hslot : s.slot ⟨k, h⟩ ≠ .running) :
      Move s { s.at_ ⟨k, h⟩ .queued with phase := .registering (k + 1) }
  | waiting {k} (hphase : s.phase = .registering k) (h : n ≤ k) : Move s { s with phase := .waiting }
  | done {i} (hslot : s.slot i = .running) : Move s (s.at_ i .done)
  | fired {i} (hslot : s.slot i = .armed) : Move s (s.at_ i .firing)
  | ignored {i} (hslot : s.slot i = .firing ∨ s.slot i = .passing) (hgone : s.detached = true ∨ s.closed = true) :
      Move s (s.at_ i .dropped)
  | passed {i} (hslot : s.slot i = .firing) (hdetached : s.detached = false) : Move s (s.at_ i .passing)
  | queued {i} (hslot : s.slot i = .passing) : Move s (s.at_ i .queued)
  | ticked {i} (hslot : s.slot i = .queued) (hphase : s.phase = .waiting ∨ ∃ how, s.phase = .returned how) :
      Move s { s.at_ i .ticked with
        outstanding := s.outstanding - 1
        finished := s.finished || s.outstanding - 1 == 0 }
  | resumed {how} (hphase : s.phase = .waiting) (hhow : how = .finished → s.finished = true) (hskip : how ≠ .skipped) :
      Move s { s with phase := .leaving how }
  | detached {how} (hphase : s.phase = .leaving how) : Move s { s with phase := .returned how, detached := true }
  | closed (hphase : s.phase = .waiting ∨ ∃ how, s.phase = .returned how) : Move s { s with closed := true }

variable {s s' : Sys n} {a : Action n} {i : Fin n}

theorem register_move (h : s.register = some s') : Move s s' := by
  unfold register at h
  split at h
  · next k hphase =>
      split_ifs at h with hk hslot
      · cases h; exact .armed hphase hk hslot
      · cases h; exact .counted hphase hk hslot
      · cases h; exact .waiting hphase (Nat.le_of_not_lt hk)
  · cases h

theorem tick_move (h : s.tick i = some s') : Move s s' := by
  unfold tick at h
  split_ifs at h with hslot
  split at h
  · next hphase => cases h; exact .ticked hslot.1 (.inl hphase)
  · next how hphase => cases h; exact .ticked hslot.1 (.inr ⟨how, hphase⟩)
  · cases h

theorem resume_move {how : End} (h : s.resume how = some s') (hhow : how = .finished → s.finished = true)
    (hskip : how ≠ .skipped) : Move s s' := by
  unfold resume at h
  split_ifs at h with hphase
  cases h
  exact .resumed hphase.1 hhow hskip

theorem step_move (h : step s a = some s') : Move s s' := by
  cases a with
  | register => exact register_move h
  | complete i =>
      simp only [step] at h
      split at h
      · next hslot => cases h; exact .done hslot
      · next hslot => cases h; exact .fired hslot
      · cases h
  | check i =>
      simp only [step] at h
      split_ifs at h with hslot hgone
      · cases h
        exact .ignored (.inl hslot) (Bool.or_eq_true_iff.mp hgone)
      · cases h
        rw [Bool.or_eq_true_iff, not_or] at hgone
        exact .passed hslot (by simpa using hgone.1)
  | schedule i =>
      simp only [step] at h
      split_ifs at h with hslot hgone
      · cases h; exact .ignored (.inr hslot) (.inr hgone)
      · cases h; exact .queued hslot
  | tick i => exact tick_move h
  | wake =>
      simp only [step] at h
      split_ifs at h with hfinished
      exact resume_move h (fun _ => hfinished) nofun
  | expire => exact resume_move h nofun nofun
  | cancel => exact resume_move h nofun nofun
  | detach =>
      simp only [step] at h
      split at h
      · next how hphase => cases h; exact .detached hphase
      · cases h
  | close =>
      simp only [step] at h
      split at h
      · next hphase => cases h; exact .closed (.inl hphase)
      · next how hphase => cases h; exact .closed (.inr ⟨how, hphase⟩)
      · cases h

/-- The futures that are still to be counted. -/
def unticked (slot : Fin n → Slot) : ℕ := (Finset.univ.filter (fun i => slot i ≠ .ticked)).card

theorem unticked_same {slot : Fin n → Slot} {v : Slot} (hold : slot i ≠ .ticked) (hnew : v ≠ .ticked) :
    unticked (Function.update slot i v) = unticked slot := by
  unfold unticked
  congr 1
  ext j
  by_cases hj : j = i
  · subst hj
    simp [hold, hnew]
  · simp [hj]

theorem unticked_tick {slot : Fin n → Slot} (hold : slot i ≠ .ticked) :
    unticked (Function.update slot i .ticked) = unticked slot - 1 := by
  unfold unticked
  rw [← Finset.card_erase_of_mem (show i ∈ Finset.univ.filter (fun i => slot i ≠ .ticked) by simpa using hold)]
  congr 1
  ext j
  by_cases hj : j = i
  · subst hj
    simp
  · simp [hj]

theorem unticked_pos {slot : Fin n → Slot} (hold : slot i ≠ .ticked) : 0 < unticked slot :=
  Finset.card_pos.mpr ⟨i, by simpa using hold⟩

theorem unticked_eq_zero {slot : Fin n → Slot} : unticked slot = 0 ↔ ∀ i, slot i = .ticked := by
  unfold unticked
  rw [Finset.card_eq_zero, Finset.filter_eq_empty_iff]
  simp

structure Inv (s : Sys n) : Prop where
  count : s.outstanding = unticked s.slot
  set : s.finished = true ↔ 0 < n ∧ s.outstanding = 0
  gone : ∀ i, s.slot i = .dropped → s.detached = true ∨ s.closed = true
  registered : ∀ i, (s.slot i).registered = true ↔ i.val < s.phase.reached n
  detached : s.detached = true ↔ ∃ how, how ≠ .skipped ∧ s.phase = .returned how
  genuine : s.phase = .leaving .finished ∨ s.phase = .returned .finished → s.finished = true
  unskipped : s.phase ≠ .leaving .skipped

theorem inv_start (n : ℕ) (timeout : ℚ) : Inv (start n timeout) := by
  have hcount : unticked (start n timeout).slot = n := by simp [unticked, start]
  refine ⟨hcount.symm, ?_, nofun, ?_, ?_, ?_, ?_⟩
  · exact iff_of_false nofun (fun h => by
      have hzero : n = 0 := h.2
      omega)
  · intro i
    refine iff_of_false nofun ?_
    simp only [start]
    split_ifs <;> exact Nat.not_lt_zero _
  · refine iff_of_false nofun ?_
    rintro ⟨how, hhow, hphase⟩
    simp only [start] at hphase
    split_ifs at hphase
    cases hphase
    exact hhow rfl
  · simp only [start]
    split_ifs <;> rintro (h | h) <;> cases h
  · simp only [start]
    split_ifs <;> nofun

/-- A call that is not over stays attached. -/
theorem Inv.attached {phase : Phase} (hs : Inv s) (hbefore : ∀ how, s.phase ≠ .returned how)
    (hafter : ∀ how, phase ≠ .returned how) :
    s.detached = true ↔ ∃ how, how ≠ .skipped ∧ phase = .returned how := by
  refine iff_of_false (fun h => ?_) ?_
  · obtain ⟨how, _, hphase⟩ := hs.detached.mp h
    exact hbefore how hphase
  · rintro ⟨how, _, hphase⟩
    exact hafter how hphase

/-- A callback that moves on, and nothing else. -/
theorem Inv.at_ (hs : Inv s) {v : Slot} (hold : s.slot i ≠ .ticked) (hnew : v ≠ .ticked)
    (hregistered : v.registered = (s.slot i).registered)
    (hgone : v = .dropped → s.detached = true ∨ s.closed = true) : Inv (s.at_ i v) := by
  refine ⟨hs.count.trans (unticked_same hold hnew).symm, hs.set, fun j hj => ?_, fun j => ?_, hs.detached, hs.genuine,
    hs.unskipped⟩
  · by_cases hji : j = i
    · subst hji
      simp only [Sys.at_, Function.update_self] at hj
      exact hgone hj
    · simp only [Sys.at_, Function.update_of_ne hji] at hj
      exact hs.gone j hj
  · have hslot : ((s.at_ i v).slot j).registered = (s.slot j).registered := by
      by_cases hji : j = i
      · subst hji
        simp only [Sys.at_, Function.update_self, hregistered]
      · simp only [Sys.at_, Function.update_of_ne hji]
    rw [hslot]
    exact hs.registered j

/-- The callback of the next future is added. -/
theorem Inv.register (hs : Inv s) {k : ℕ} (hphase : s.phase = .registering k) (hk : k < n) {v : Slot}
    (hregistered : v.registered = true) (hnew : v ≠ .ticked ∧ v ≠ .dropped) :
    Inv { s.at_ ⟨k, hk⟩ v with phase := .registering (k + 1) } := by
  have hold : s.slot ⟨k, hk⟩ ≠ .ticked := by
    intro hslot
    have hiff := hs.registered ⟨k, hk⟩
    rw [hslot, hphase] at hiff
    exact absurd (hiff.mp rfl) (lt_irrefl k)
  refine ⟨hs.count.trans (unticked_same hold hnew.1).symm, hs.set, fun j hj => ?_, fun j => ?_, ?_, nofun, nofun⟩
  · by_cases hji : j = ⟨k, hk⟩
    · subst hji
      simp only [Sys.at_, Function.update_self] at hj
      exact absurd hj hnew.2
    · simp only [Sys.at_, Function.update_of_ne hji] at hj
      exact hs.gone j hj
  · by_cases hji : j = ⟨k, hk⟩
    · subst hji
      simp only [Sys.at_, Function.update_self]
      exact iff_of_true hregistered (Nat.lt_succ_self k)
    · simp only [Sys.at_, Function.update_of_ne hji]
      rw [hs.registered j, hphase]
      have hne : j.val ≠ k := fun h => hji (Fin.ext h)
      simp only [Phase.reached]
      omega
  · exact hs.attached (by rw [hphase]; nofun) (by nofun)

theorem Move.inv (h : Move s s') (hs : Inv s) : Inv s' := by
  cases h with
  | armed hphase hk hslot => exact hs.register hphase hk rfl ⟨nofun, nofun⟩
  | counted hphase hk hslot => exact hs.register hphase hk rfl ⟨nofun, nofun⟩
  | @waiting k hphase hk =>
      refine ⟨hs.count, hs.set, hs.gone, fun i => ?_, hs.attached (by rw [hphase]; nofun) nofun, nofun, nofun⟩
      rw [hs.registered i, hphase]
      exact iff_of_true (i.isLt.trans_le hk) i.isLt
  | done hslot => exact hs.at_ (by rw [hslot]; nofun) nofun (by rw [hslot]; rfl) nofun
  | fired hslot => exact hs.at_ (by rw [hslot]; nofun) nofun (by rw [hslot]; rfl) nofun
  | ignored hslot hgone =>
      rcases hslot with hslot | hslot <;>
        exact hs.at_ (by rw [hslot]; nofun) nofun (by rw [hslot]; rfl) (fun _ => hgone)
  | passed hslot => exact hs.at_ (by rw [hslot]; nofun) nofun (by rw [hslot]; rfl) nofun
  | queued hslot => exact hs.at_ (by rw [hslot]; nofun) nofun (by rw [hslot]; rfl) nofun
  | @ticked i hslot hphase =>
      have hold : s.slot i ≠ .ticked := by rw [hslot]; nofun
      have hpos : 0 < n := Nat.lt_of_le_of_lt (Nat.zero_le _) i.isLt
      refine ⟨?_, ?_, fun j hj => ?_, fun j => ?_, hs.detached, fun h => ?_, hs.unskipped⟩
      · exact (congrArg (· - 1) hs.count).trans (unticked_tick hold).symm
      · have hset := hs.set
        have hleft := unticked_pos hold
        rw [← hs.count] at hleft
        have hunset : s.finished = false := by
          rw [Bool.eq_false_iff, ne_eq, hset]
          omega
        simp [hunset, hpos]
      · by_cases hji : j = i
        · subst hji
          simp only [Sys.at_, Function.update_self] at hj
          cases hj
        · simp only [Sys.at_, Function.update_of_ne hji] at hj
          exact hs.gone j hj
      · change ((s.at_ i .ticked).slot j).registered = true ↔ j.val < s.phase.reached n
        rw [← hs.registered j]
        by_cases hji : j = i
        · subst hji
          simp only [Sys.at_, Function.update_self, hslot]
          rfl
        · simp only [Sys.at_, Function.update_of_ne hji]
      · simp only [Bool.or_eq_true, hs.genuine h, true_or]
  | @resumed how hphase hhow hskip =>
      refine ⟨hs.count, hs.set, hs.gone, fun i => ?_, hs.attached (by rw [hphase]; nofun) nofun, fun h => ?_, fun h => ?_⟩
      · rw [hs.registered i, hphase]
        rfl
      · rcases h with h | h <;> cases h
        exact hhow rfl
      · cases h
        exact hskip rfl
  | @detached how hphase =>
      refine ⟨hs.count, hs.set, fun i hi => .inl rfl, fun i => ?_, ?_, fun h => ?_, nofun⟩
      · rw [hs.registered i, hphase]
        cases how with
        | skipped => exact absurd hphase hs.unskipped
        | finished | timedOut | cancelled => rfl
      · exact iff_of_true rfl ⟨how, fun hskip => hs.unskipped (hskip ▸ hphase), rfl⟩
      · rcases h with h | h <;> cases h
        exact hs.genuine (.inl hphase)
  | closed => exact ⟨hs.count, hs.set, fun _ _ => .inr rfl, hs.registered, hs.detached, hs.genuine, hs.unskipped⟩

end Sys

/-- The states of a call for some futures with some timeout. -/
abbrev Reachable {n : ℕ} (timeout : ℚ) (s : Sys n) : Prop := Reaches (fun s => s = start n timeout) Sys.step free s

namespace Sys

variable {n : ℕ} {s s' : Sys n} {i : Fin n} {timeout : ℚ}

theorem reachable_inv (h : Reachable timeout s) : Inv s := by
  refine h.induction (P := Inv) ?_ ?_
  · rintro s rfl
    exact inv_start n timeout
  · intro s a s' _ hs hstep _
    exact (step_move hstep).inv hs

/-- The event is set once every callback was counted. -/
theorem Inv.finished_iff (hs : Inv s) : s.finished = true ↔ 0 < n ∧ ∀ i, s.slot i = .ticked := by
  rw [hs.set, hs.count, unticked_eq_zero]

/-- A callback that checks after the call is over stays away from the loop. -/
theorem Move.silent (h : Move s s') (hdetached : s.detached = true) (hs : Inv s) (hslot : (s.slot i).through = false) :
    s'.detached = true ∧ (s'.slot i).through = false := by
  have hupdate : ∀ {j v}, (j = i → v.through = false) → (Function.update s.slot j v i).through = false := by
    intro j v hv
    by_cases hji : i = j
    · subst hji
      rw [Function.update_self]
      exact hv rfl
    · rw [Function.update_of_ne hji]
      exact hslot
  obtain ⟨how, _, hreturned⟩ := hs.detached.mp hdetached
  cases h with
  | armed hphase | counted hphase | waiting hphase | resumed hphase => cases hphase.symm.trans hreturned
  | done | fired => exact ⟨hdetached, hupdate (fun _ => rfl)⟩
  | ignored => exact ⟨hdetached, hupdate (fun _ => rfl)⟩
  | passed _ hattached => cases hdetached.symm.trans hattached
  | queued hold | ticked hold =>
      refine ⟨hdetached, hupdate (fun hji => ?_)⟩
      subst hji
      rw [hold] at hslot
      cases hslot
  | detached => exact ⟨rfl, hslot⟩
  | closed => exact ⟨hdetached, hslot⟩

theorem path_silent {as : List (Action n)} (h : Path Sys.step free s as s') (hdetached : s.detached = true) (hs : Inv s)
    (hslot : (s.slot i).through = false) : (s'.slot i).through = false := by
  have hkept := h.invariant (P := fun s => Inv s ∧ s.detached = true ∧ (s.slot i).through = false) ⟨hs, hdetached, hslot⟩
    (fun _ _ _ hu hstep _ => ⟨(step_move hstep).inv hu.1, (step_move hstep).silent hu.2.1 hu.1 hu.2.2⟩)
  exact hkept.2.2

/-- The wait for the futures of a health check, over every order of the workers, the
loop and the clock. It ends early only when every future is done. While it waits on an
open loop no end is lost: once every future is done and no callback is under way the
event is set, so that it ends at the next turn. And after it ended a callback that has
not yet looked never wakes the loop. -/
theorem wait_sound (h : Reachable timeout s) :
    (s.phase = .returned .finished → ∀ i, (s.slot i).ended = true) ∧
    (s.phase = .waiting → s.closed = false → 0 < n → (∀ i, (s.slot i).ended = true ∧ (s.slot i).moving = false) →
      s.finished = true ∧ ∃ s', Sys.step s .wake = some s') ∧
    ((∃ how, s.phase = .returned how) → s.phase ≠ .returned .skipped → ∀ as s' i, Path Sys.step free s as s' →
      (s.slot i).through = false → (s'.slot i).through = false) := by
  have hs := reachable_inv h
  refine ⟨fun hreturned i => ?_, fun hwaiting hopen hpos hquiet => ?_, ?_⟩
  · rw [(hs.finished_iff.mp (hs.genuine (.inr hreturned))).2 i]
    rfl
  · have hfinished : s.finished = true := by
      refine hs.finished_iff.mpr ⟨hpos, fun i => ?_⟩
      obtain ⟨hended, hmoving⟩ := hquiet i
      have hregistered := (hs.registered i).mpr (by rw [hwaiting]; exact i.isLt)
      cases hslot : s.slot i with
      | ticked => rfl
      | dropped =>
          rcases hs.gone i hslot with hgone | hgone
          · obtain ⟨how, _, hreturned⟩ := hs.detached.mp hgone
            cases hwaiting.symm.trans hreturned
          · cases hopen.symm.trans hgone
      | running | armed => rw [hslot] at hended; cases hended
      | firing | passing | queued => rw [hslot] at hmoving; cases hmoving
      | done => rw [hslot] at hregistered; cases hregistered
    refine ⟨hfinished, ?_⟩
    simp [Sys.step, Sys.resume, hfinished, hwaiting, hopen]
  · rintro ⟨how, hreturned⟩ hskip as s' i hpath hslot
    have hdetached := hs.detached.mpr ⟨how, fun h => hskip (h ▸ hreturned), hreturned⟩
    exact path_silent hpath hdetached hs hslot

/-- One probe that ends while the call waits for it. -/
def probeRun : List (Action 1) :=
  [.register, .register, .complete 0, .check 0, .schedule 0, .tick 0, .wake, .detach]

theorem probe_awaited : ∃ s, run Sys.step (start 1 5) probeRun = some s ∧ s.phase = .returned .finished ∧
    ∀ i, (s.slot i).ended = true := by
  refine ⟨_, rfl, rfl, ?_⟩
  exact (@wait_sound 1 _ 5 (.of_run rfl (by rfl : run Sys.step (start 1 5) probeRun = some _)
    (fun _ _ _ _ _ => trivial))).1 rfl

end Sys

end MoomooMcp.AwaitFutures
