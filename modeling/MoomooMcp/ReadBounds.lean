import Mathlib.Data.List.Basic
import MoomooMcp.ReadDeadline

namespace MoomooMcp.ReadDeadline

open Machine

variable {l : Limits} {s t : Dispatcher} {a : Action} {as : List Action}

def Phase.slots (ph : Phase) : ℤ := if ph.holds then 1 else 0

/-- What a step can do. -/
inductive Step (l : Limits) (s : Dispatcher) : Action → Dispatcher → Prop
  | tick {seconds} (h : 0 ≤ seconds) : Step l s (.tick seconds) { s with clock := s.clock + seconds }
  | refused : Step l s (.enter none) s
  | admitted (h : s.pendingReads < l.maxPendingReads) :
      Step l s (.enter none) { s with
        pendingReads := s.pendingReads + 1
        reads := s.reads ++ [⟨s.clock + l.readTimeoutSeconds, false, 0, .inside⟩] }
  | read {a r c c'} (hc : s.reads[r]? = some c) (hpending : c'.pending = c.pending) (hawait : c.await ≠ .ended ∨ c'.await = c.await)
      (hdeadline : c'.deadline = c.deadline)
      (hcancelled : c'.cancelled = true → s.isOver r = true ∨ a = .expire r ∨ a = .leave r true)
      (hother : ∀ job outcome, a ≠ .work job outcome) : Step l s a (s.setRead r c')
  | finished {r c} (hc : s.reads[r]? = some c) (h : c.await = .leaving) :
      Step l s (.finish r) { s.setRead r { c with await := .ended } with pendingReads := s.pendingReads - 1 }
  | call {r bundle} :
      Step l s (.call r bundle) { s with jobs := s.jobs ++ [⟨r, if bundle then .quota else .queued⟩] }
  | job {i j outcome ph workers} (hj : s.jobs[i]? = some j) (hlive : j.phase ≠ .finished)
      (hworkers : workers = s.readWorkers - j.phase.slots + ph.slots)
      (hfree : j.holds = false → ph.holds = true → s.readWorkers < l.maxInflightReads)
      (hrelease : j.holds = true → ph.holds = false → ph = .finished ∧
        (outcome = .goes ∧ j.phase = .returning ∨ outcome = .stops ∧ j.phase = .occupied))
      (hchecked : ph = .checked → s.isOver j.read = false) :
      Step l s (.work i outcome) { s.at i j.read ph with readWorkers := workers }

theorem enter_step {current : Option ℕ} (h : enter l s current = some t) : Step l s (.enter current) t := by
  cases current with
  | some r =>
      obtain ⟨c, hc, rfl⟩ := Option.map_eq_some_iff.mp h
      refine .read hc rfl (.inr rfl) rfl (fun hcancelled => .inl ?_) nofun
      have hcancelled' : c.cancelled = true := hcancelled
      simp [Dispatcher.isOver, hc, hcancelled']
  | none =>
      dsimp only [enter] at h
      split at h
      · cases h
        exact .refused
      · next hroom =>
          cases h
          exact .admitted (by omega)

/-- A job that goes on without taking or giving back a slot. -/
theorem keep_step {i : ℕ} {j : Job} {outcome : Outcome} (ph : Phase) (hj : s.jobs[i]? = some j) (hlive : j.phase ≠ .finished)
    (hholds : ph.holds = j.phase.holds) (hchecked : ph = .checked → s.isOver j.read = false) :
    Step l s (.work i outcome) (s.at i j.read ph) := by
  have hstep : Step l s (.work i outcome) { s.at i j.read ph with readWorkers := s.readWorkers } := by
    refine .job hj hlive ?_ (fun hf ht => ?_) (fun ht hf => ?_) hchecked
    · rw [Phase.slots, Phase.slots, hholds]
      omega
    · rw [hholds] at ht
      exact absurd (hf.symm.trans ht) nofun
    · rw [hholds] at hf
      exact absurd (hf.symm.trans ht) nofun
  exact hstep

theorem work_step {i : ℕ} {j : Job} {outcome : Outcome} (hj : s.jobs[i]? = some j)
    (h : work l s i j.read j.phase outcome = some t) : Step l s (.work i outcome) t := by
  obtain ⟨r, ph⟩ := j
  cases ph with
  | quota =>
      cases outcome with
      | goes | stops =>
          cases h
          exact keep_step _ hj nofun rfl nofun
  | queued =>
      cases outcome with
      | goes =>
          cases h
          refine keep_step _ hj nofun ?_ (fun hph => ?_)
          · split <;> rfl
          · split at hph <;> cases hph
      | stops =>
          cases h
          exact keep_step _ hj nofun rfl nofun
  | polled =>
      cases outcome with
      | goes =>
          dsimp only [work] at h
          split at h
          · next hroom =>
              cases h
              refine .job hj nofun ?_ (fun _ _ => hroom) nofun nofun
              simp [Phase.slots, Phase.holds]
          · cases h
            exact keep_step _ hj nofun rfl nofun
      | stops => cases h
  | occupied =>
      cases outcome with
      | goes =>
          cases h
          exact keep_step _ hj nofun rfl nofun
      | stops =>
          cases h
          refine .job hj nofun ?_ nofun (fun _ _ => ⟨rfl, .inr ⟨rfl, rfl⟩⟩) nofun
          simp [Phase.slots, Phase.holds]
  | entered =>
      cases outcome with
      | goes =>
          cases h
          refine keep_step _ hj nofun ?_ (fun hph => ?_)
          · split <;> rfl
          · split at hph <;> cases hph
      | stops => cases h
  | running =>
      cases outcome with
      | goes =>
          cases h
          refine keep_step _ hj nofun ?_ (fun hph => ?_)
          · split <;> rfl
          · split at hph
            · cases hph
            · next hover => simpa using hover
      | stops =>
          cases h
          exact keep_step _ hj nofun rfl nofun
  | checked | calling =>
      cases outcome with
      | goes =>
          cases h
          exact keep_step _ hj nofun rfl nofun
      | stops => cases h
  | returning =>
      cases outcome with
      | goes =>
          cases h
          refine .job hj nofun ?_ nofun (fun _ _ => ⟨rfl, .inl ⟨rfl, rfl⟩⟩) nofun
          simp [Phase.slots, Phase.holds]
      | stops => cases h
  | finished => cases outcome <;> cases h

theorem next_step (h : next l s a = some t) : Step l s a t := by
  cases a with
  | tick seconds =>
      dsimp only [next] at h
      split at h
      · next hpos =>
          cases h
          exact .tick hpos
      · cases h
  | enter current => exact enter_step h
  | leaveNested r =>
      dsimp only [next] at h
      split at h
      · next c hc =>
          split at h
          · cases h
            refine .read hc rfl (.inr rfl) rfl (fun hcancelled => .inl ?_) nofun
            have hcancelled' : c.cancelled = true := hcancelled
            simp [Dispatcher.isOver, hc, hcancelled']
          · cases h
      · cases h
  | expire r =>
      dsimp only [next] at h
      split at h
      · next c hc =>
          split at h
          · cases h
            exact .read hc rfl (.inr rfl) rfl (fun _ => .inr (.inl rfl)) nofun
          · cases h
      · cases h
  | leave r raised =>
      obtain ⟨c, hc, h⟩ := Option.bind_eq_some_iff.mp h
      unfold leave at h
      split at h
      · next hinside =>
          cases h
          have hopen : c.await ≠ .ended := by rw [hinside]; nofun
          refine .read hc ?_ (.inl hopen) rfl (fun hcancelled => ?_) nofun
          · simp [ReadCall.pending, hinside]
          · cases raised with
            | true => exact .inr (.inr rfl)
            | false =>
                left
                simpa [Dispatcher.isOver, hc] using hcancelled
      · cases h
  | finish r =>
      dsimp only [next] at h
      split at h
      · next c hc =>
          split at h
          · next hleaving =>
              cases h
              exact .finished hc hleaving
          · cases h
      · cases h
  | call r bundle =>
      dsimp only [next] at h
      split at h
      · cases h
        exact .call
      · cases h
  | work i outcome =>
      dsimp only [next] at h
      split at h
      · next j hj => exact work_step hj h
      · cases h

/-- What one element adds to a count, and what another one in its place does. -/
theorem countP_set {α : Type} (p : α → Bool) {xs : List α} {i : ℕ} {x : α} (h : xs[i]? = some x) (y : α) :
    ((xs.set i y).countP p : ℤ) = xs.countP p - (if p x then 1 else 0) + (if p y then 1 else 0) := by
  obtain ⟨hi, hx⟩ := List.getElem?_eq_some_iff.mp h
  have hpos : p x = true → 0 < xs.countP p := fun hp => List.countP_pos_iff.mpr ⟨x, hx ▸ List.getElem_mem hi, hp⟩
  rw [List.countP_set hi, hx]
  split
  · next hp =>
      have hone := hpos hp
      split <;> omega
  · split <;> omega

/-- The counters count the reads whose await goes on and the jobs that hold a slot, within their limits. -/
structure Accounted (l : Limits) (s : Dispatcher) : Prop where
  pending : s.pendingReads = s.reads.countP ReadCall.pending
  workers : s.readWorkers = s.jobs.countP Job.holds
  pending_le : s.pendingReads ≤ l.maxPendingReads
  workers_le : s.readWorkers ≤ l.maxInflightReads

theorem accounted_initial : Accounted l .initial := ⟨rfl, rfl, Int.natCast_nonneg _, Int.natCast_nonneg _⟩

theorem Accounted.step (h : Accounted l s) (hstep : Step l s a t) : Accounted l t := by
  cases hstep with
  | tick hpos => exact ⟨h.pending, h.workers, h.pending_le, h.workers_le⟩
  | refused => exact h
  | admitted hroom =>
      refine ⟨?_, h.workers, ?_, h.workers_le⟩
      · have hpending := h.pending
        simp [ReadCall.pending, hpending]
      · exact hroom
  | read hc hpending hawait hdeadline hcancelled hother =>
      refine ⟨?_, h.workers, h.pending_le, h.workers_le⟩
      have hset := countP_set ReadCall.pending hc
      change s.pendingReads = _
      rw [Dispatcher.setRead, hset, hpending, ← h.pending]
      omega
  | finished hc hleaving =>
      have hset := countP_set ReadCall.pending hc
      refine ⟨?_, h.workers, ?_, h.workers_le⟩
      · have hpending := h.pending
        simp only [Dispatcher.setRead, hset]
        simp [ReadCall.pending, hleaving, hpending]
      · have hle := h.pending_le
        change s.pendingReads - 1 ≤ _
        omega
  | call =>
      refine ⟨h.pending, ?_, h.pending_le, h.workers_le⟩
      change s.readWorkers = _
      rw [h.workers, List.countP_append]
      split <;> rfl
  | @job i j outcome ph workers hj hlive hworkers hfree hrelease hchecked =>
      have hset := countP_set Job.holds hj ⟨j.read, ph⟩
      have hslots : workers = s.readWorkers - (if j.holds then 1 else 0) + (if ph.holds then 1 else 0) := hworkers
      have hle := h.workers_le
      have hcount := h.workers
      refine ⟨h.pending, ?_, h.pending_le, ?_⟩
      · change workers = ((s.jobs.set i ⟨j.read, ph⟩).countP Job.holds : ℤ)
        rw [hset, hslots, hcount]
        rfl
      · change workers ≤ _
        cases hold : j.holds with
        | true =>
            rw [hold, if_pos rfl] at hslots
            split at hslots <;> omega
        | false =>
            rw [hold] at hslots
            cases hnew : ph.holds with
            | true =>
                have hroom := hfree hold hnew
                simp [hnew] at hslots
                omega
            | false =>
                simp [hnew] at hslots
                omega

/-- Every job stays where it is, and what becomes of it is what a slot allows. -/
theorem Step.slotsKept (hstep : Step l s a t) : SlotsKept s a t := by
  intro i j hi
  have hkept : t.jobs[i]? = some j → ∃ j', t.jobs[i]? = some j' ∧ (j.phase = .finished → j' = j) ∧
      (j.holds = true → j'.holds = false → j'.phase = .finished ∧
        (a = .work i .goes ∧ j.phase = .returning ∨ a = .work i .stops ∧ j.phase = .occupied)) := by
    intro ht
    exact ⟨j, ht, fun _ => rfl, fun ht hf => absurd (ht.symm.trans hf) nofun⟩
  cases hstep with
  | tick | refused | admitted | read | finished => exact hkept hi
  | call =>
      refine hkept ?_
      have hlt := (List.getElem?_eq_some_iff.mp hi).1
      exact (List.getElem?_append_left hlt).trans hi
  | @job i' j' outcome ph workers hj hlive hworkers hfree hrelease hchecked =>
      by_cases heq : i' = i
      · subst heq
        obtain rfl : j' = j := Option.some.inj (hj.symm.trans hi)
        have hlt := (List.getElem?_eq_some_iff.mp hi).1
        refine ⟨⟨j'.read, ph⟩, List.getElem?_set_self hlt, fun hover => absurd hover hlive, fun ht hf => ?_⟩
        obtain ⟨hover, hgoes | hstops⟩ := hrelease ht hf
        · exact ⟨hover, .inl ⟨congrArg _ hgoes.1, hgoes.2⟩⟩
        · exact ⟨hover, .inr ⟨congrArg _ hstops.1, hstops.2⟩⟩
      · exact hkept ((List.getElem?_set_ne heq).trans hi)

theorem Step.pendingKept (hstep : Step l s a t) : PendingKept s a t := by
  have hkept : ∀ r c, t.reads[r]? = some c → ∃ c', t.reads[r]? = some c' ∧ (c.await = .ended → c'.await = .ended) ∧
      (c.pending = true → c'.pending = false → a = .finish r ∧ c.await = .leaving) :=
    fun r c ht => ⟨c, ht, id, fun ht hf => absurd (ht.symm.trans hf) nofun⟩
  cases hstep with
  | tick | refused | call => exact ⟨fun r c hr => hkept r c hr, fun _ _ => rfl⟩
  | job => exact ⟨fun r c hr => hkept r c hr, fun _ _ => rfl⟩
  | admitted =>
      refine ⟨fun r c hr => hkept r c ?_, nofun⟩
      have hlt := (List.getElem?_eq_some_iff.mp hr).1
      exact (List.getElem?_append_left hlt).trans hr
  | @read _ r' c' d hc hpending hawait hdeadline hcancelled hother =>
      refine ⟨fun r c hr => ?_, fun _ _ => rfl⟩
      by_cases heq : r' = r
      · subst heq
        obtain rfl : c' = c := Option.some.inj (hc.symm.trans hr)
        have hlt := (List.getElem?_eq_some_iff.mp hr).1
        refine ⟨d, List.getElem?_set_self hlt, fun hended => ?_, fun ht hf => ?_⟩
        · rcases hawait with hopen | hsame
          · exact absurd hended hopen
          · exact hsame.trans hended
        · rw [hpending, ht] at hf
          cases hf
      · exact hkept r c ((List.getElem?_set_ne heq).trans hr)
  | @finished r' c' hc hleaving =>
      refine ⟨fun r c hr => ?_, nofun⟩
      by_cases heq : r' = r
      · subst heq
        obtain rfl : c' = c := Option.some.inj (hc.symm.trans hr)
        have hlt := (List.getElem?_eq_some_iff.mp hr).1
        exact ⟨{ c' with await := .ended }, List.getElem?_set_self hlt, fun _ => rfl, fun _ _ => ⟨rfl, hleaving⟩⟩
      · exact hkept r c ((List.getElem?_set_ne heq).trans hr)

/-- No worker has passed its check for a read that is over. -/
def Fresh (s : Dispatcher) : Prop := ∀ j ∈ s.jobs, j.phase = .checked → s.isOver j.read = false

theorem isOver_eq_false {r : ℕ} : s.isOver r = false ↔
    ∀ c, s.reads[r]? = some c → c.cancelled = false ∧ s.clock < c.deadline := by
  unfold Dispatcher.isOver
  cases s.reads[r]? with
  | none => simp
  | some c => simp

theorem fresh_initial : Fresh .initial := by
  intro j hj
  cases hj

theorem Fresh.step (h : Fresh s) (hstep : Step l s a t) (hcareful : Careful s a t) : Fresh t := by
  cases hstep with
  | tick hpos =>
      intro j hj hph
      refine isOver_eq_false.mpr (fun c hc => ?_)
      exact ⟨(isOver_eq_false.mp (h j hj hph) c hc).1, hcareful j hj hph c hc⟩
  | refused => exact h
  | admitted hroom =>
      intro j hj hph
      refine isOver_eq_false.mpr (fun c hc => ?_)
      rw [List.getElem?_append] at hc
      split at hc
      · exact isOver_eq_false.mp (h j hj hph) c hc
      · obtain rfl := List.mem_singleton.mp (List.mem_of_getElem? hc)
        exact ⟨rfl, lt_add_of_pos_right s.clock l.timeout_pos⟩
  | @read _ r c' d hc hpending hawait hdeadline hcancelled hother =>
      intro j hj hph
      have hfresh := h j hj hph
      refine isOver_eq_false.mpr (fun c hcr => ?_)
      by_cases heq : r = j.read
      · subst heq
        have hlt := (List.getElem?_eq_some_iff.mp hc).1
        obtain rfl : d = c := Option.some.inj ((List.getElem?_set_self hlt).symm.trans hcr)
        refine ⟨Bool.eq_false_iff.mpr (fun hd => ?_), ?_⟩
        · rcases hcancelled hd with hover | rfl | rfl
          · exact absurd (hover.symm.trans hfresh) nofun
          · exact hcareful j hj rfl hph
          · exact hcareful j hj rfl hph
        · rw [hdeadline]
          exact (isOver_eq_false.mp hfresh c' hc).2
      · exact isOver_eq_false.mp hfresh c ((List.getElem?_set_ne heq).symm.trans hcr)
  | @finished r c' hc hleaving =>
      intro j hj hph
      have hfresh := h j hj hph
      refine isOver_eq_false.mpr (fun c hcr => ?_)
      by_cases heq : r = j.read
      · subst heq
        have hlt := (List.getElem?_eq_some_iff.mp hc).1
        obtain rfl : { c' with await := .ended } = c := Option.some.inj ((List.getElem?_set_self hlt).symm.trans hcr)
        exact isOver_eq_false.mp hfresh c' hc
      · exact isOver_eq_false.mp hfresh c ((List.getElem?_set_ne heq).symm.trans hcr)
  | @call r bundle =>
      intro j hj hph
      rcases List.mem_append.mp hj with hold | hnew
      · exact h j hold hph
      · obtain rfl := List.mem_singleton.mp hnew
        cases bundle <;> cases hph
  | @job i j' outcome ph workers hi hlive hworkers hfree hrelease hchecked =>
      intro j hj hph
      rcases List.mem_or_eq_of_mem_set hj with hold | rfl
      · exact h j hold hph
      · exact hchecked hph

theorem Fresh.timely (h : Fresh s) : Timely s a t := by
  cases a with
  | work i outcome =>
      cases outcome with
      | goes => exact fun j hj hph => h j (List.mem_of_getElem? hj) hph
      | stops => trivial
  | tick | enter | leaveNested | expire | leave | finish | call => trivial

/-- The pending reads and the worker slots stay within their limits, each slot is given
back once and in its time, and in a run that ends no read between a check and its call
no SDK call is started for a read that is over. -/
theorem reads_bounded (l : Limits) (h : Path (next l) free .initial as s) :
    (s.pendingReads ≤ l.maxPendingReads ∧ s.readWorkers ≤ l.maxInflightReads) ∧
    (s.pendingReads = s.reads.countP ReadCall.pending ∧ s.readWorkers = s.jobs.countP Job.holds) ∧
    Path (next l) (fun s a t => PendingKept s a t ∧ SlotsKept s a t) .initial as s ∧
    (Path (next l) Careful .initial as s → Path (next l) Timely .initial as s) := by
  have hcounts : Accounted l s := h.invariant accounted_initial (fun _ _ _ hs hstep _ => hs.step (next_step hstep))
  refine ⟨⟨hcounts.pending_le, hcounts.workers_le⟩, ⟨hcounts.pending, hcounts.workers⟩, ?_, fun hcareful => ?_⟩
  · exact h.mono (fun _ _ _ hstep _ => ⟨(next_step hstep).pendingKept, (next_step hstep).slotsKept⟩)
  · have hcarry : Fresh s ∧ Path (next l) Timely .initial as s :=
      hcareful.carry fresh_initial (fun _ _ _ hs hstep hok => ⟨hs.step (next_step hstep) hok, hs.timely⟩)
    exact hcarry.2

/-- The limits a dispatcher has if it is given none. -/
def defaultLimits : Limits := ⟨15, 8, 32, by decide, by decide, by decide⟩

/-- A worker passes its check before an SDK call, and then the deadline of its read expires. -/
def expiringRun : List Action :=
  [.enter none, .call 0 false, .work 0 .goes, .work 0 .goes, .work 0 .goes, .work 0 .goes, .work 0 .goes, .tick 15,
    .expire 0]

def expiredState : Dispatcher := ⟨15, 1, 1, [⟨15, true, 0, .inside⟩], [⟨0, .checked⟩]⟩

theorem late_call : ¬ ∀ l as s, Path (next l) free .initial as s → Path (next l) Timely .initial as s := by
  intro hall
  have hrun : run (next defaultLimits) .initial (expiringRun ++ [.work 0 .goes]) =
      some { expiredState with jobs := [⟨0, .calling⟩] } := by decide +kernel
  obtain ⟨u, hu, -, htimely⟩ := (hall _ _ _ (free_of_run hrun)).unsnoc
  have hexpired : run (next defaultLimits) .initial expiringRun = some expiredState := by decide +kernel
  obtain rfl : expiredState = u := Option.some.inj (hexpired.symm.trans hu.run_eq)
  exact absurd (htimely ⟨0, .checked⟩ rfl rfl) (by decide +kernel)

/-- One read with a nested scope. Its deadline passes during its second SDK call, and
the worker gives its slot back when the await has ended long since. -/
def abandonedRun : List Action :=
  [.enter none, .enter (some 0), .call 0 true] ++ List.replicate 10 (.work 0 .goes) ++
    [.tick 20, .expire 0, .leaveNested 0, .leave 0 true, .finish 0] ++ List.replicate 2 (.work 0 .goes) ++
    [.work 0 .stops, .work 0 .goes]

def abandonedEnd : Dispatcher := ⟨20, 0, 0, [⟨15, true, 0, .ended⟩], [⟨0, .finished⟩]⟩

theorem reads_bounded_abandoned : Path (next defaultLimits) Timely .initial abandonedRun abandonedEnd := by
  have hrun : run (restrict (next defaultLimits) Careful) .initial abandonedRun = some abandonedEnd := by decide +kernel
  have hcareful : Path (next defaultLimits) Careful .initial abandonedRun abandonedEnd := path_of_restricted hrun
  exact (reads_bounded defaultLimits (hcareful.mono (fun _ _ _ _ _ => trivial))).2.2.2 hcareful

end MoomooMcp.ReadDeadline
