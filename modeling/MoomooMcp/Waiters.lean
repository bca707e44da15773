import MoomooMcp.QuotaRuns

namespace MoomooMcp.RateLimit

open Machine

variable {β : Type} [InMemoryBucket β]

namespace Limiter

/-- A reservation is granted past an empty queue or to the ticket at its head. -/
theorem tryReserve_first {weight : ℤ} {ticket : Option ℕ} {now : ℚ} {l : Limiter β} {slot : ℕ}
    (h : (l.tryReserve weight ticket now).1 = .reserved slot) : l.waiters = [] ∨ l.waiters.head? = ticket := by
  by_contra hqueue
  have hrefused : (l.prune now).waiters ≠ [] ∧ (l.prune now).waiters.head? ≠ ticket := not_or.mp hqueue
  by_cases hweight : weight < 1 ∨ l.policy.calls < weight
  · rw [tryReserve, if_pos hweight] at h
    cases h
  · rw [tryReserve, if_neg hweight] at h
    simp only [if_pos hrefused] at h
    cases h

theorem tryReserve_waiters (weight : ℤ) (ticket : Option ℕ) (now : ℚ) (l : Limiter β) :
    (l.tryReserve weight ticket now).2.waiters = l.waiters := by
  rcases tryReserve_cases weight ticket now l with ⟨_, hsame | hpruned⟩ | ⟨_, hreserved⟩
  · rw [hsame]
  · rw [hpruned]
    rfl
  · rw [hreserved]
    rfl

theorem tryReserve_issued {weight : ℤ} {ticket : Option ℕ} {now : ℚ} {l : Limiter β}
    (h : ∀ slot, (l.tryReserve weight ticket now).1 ≠ .reserved slot) :
    (l.tryReserve weight ticket now).2.issued = l.issued := by
  rcases tryReserve_cases weight ticket now l with ⟨_, hsame | hpruned⟩ | ⟨_, hreserved⟩
  · rw [hsame]
  · rw [hpruned]
    rfl
  · exact absurd (congrArg Prod.fst hreserved) (h _)

theorem start_queue (slot : ℕ) (now : ℚ) (l : Limiter β) :
    (l.start slot now).2.waiters = l.waiters ∧ (l.start slot now).2.issued = l.issued := by
  by_cases hslot : slot ∈ l.pending
  · rw [start, if_pos hslot]
    dsimp only
    split
    · exact ⟨rfl, rfl⟩
    · split
      · exact ⟨rfl, rfl⟩
      · split <;> exact ⟨rfl, rfl⟩
  · rw [start_not_pending hslot]
    exact ⟨rfl, rfl⟩

end Limiter

namespace Phase

/-- The ticket has left the queue. -/
def isLeft : Phase → Bool
  | .left _ => true
  | _ => false

/-- The ticket has not joined the queue. -/
def isEntering : Phase → Bool
  | .entering => true
  | _ => false

/-- The deadline was checked and the attempt to reserve is next. -/
def isTrying : Phase → Bool
  | .trying => true
  | _ => false

def queued (p : Phase) : Bool := !p.isEntering && !p.isLeft

end Phase

namespace Sys

/-- What a step does to the queue, to the tickets and to the reservations. -/
inductive Move (s : Sys β) : Action → Sys β → Prop
  | ticked {now} (h : s.clock ≤ now) : Move s (.tick now) { s with clock := now }
  | quiet {a l starts} (hwaiters : l.waiters = s.limiter.waiters) (hissued : l.issued = s.limiter.issued) :
      Move s a { s with limiter := l, starts := starts }
  | synchronous {a l} (ha : ∀ ticket, a ≠ .advance ticket) (hempty : s.limiter.waiters = [])
      (hwaiters : l.waiters = s.limiter.waiters) : Move s a { s with limiter := l }
  | began {a weight deadline} :
      Move s a { s with
        acquires := Function.update s.acquires s.tickets (some ⟨weight, deadline, .entering⟩)
        tickets := s.tickets + 1 }
  | joined {ticket a} (ha : s.acquires ticket = some a) (hphase : a.phase = .entering) :
      Move s (.advance ticket) (s.move ticket a .checking { s.limiter with waiters := s.limiter.waiters ++ [ticket] })
  | waited {act ticket a phase l} (ha : s.acquires ticket = some a) (hbefore : a.phase.queued) (hafter : phase.queued)
      (htrying : phase.isTrying → s.clock ≤ a.deadline) (hwaiters : l.waiters = s.limiter.waiters)
      (hissued : l.issued = s.limiter.issued) : Move s act (s.move ticket a phase l)
  | granted {ticket a slot l} (ha : s.acquires ticket = some a) (hphase : a.phase = .trying)
      (hfirst : s.limiter.waiters = [] ∨ s.limiter.waiters.head? = some ticket)
      (hwaiters : l.waiters = s.limiter.waiters) :
      Move s (.advance ticket) (s.move ticket a (.leaving (.reserved slot)) l)
  | departed {ticket a outcome} (ha : s.acquires ticket = some a) (hphase : a.phase = .leaving outcome) :
      Move s (.advance ticket)
        (s.move ticket a (.left outcome) { s.limiter with waiters := s.limiter.waiters.erase ticket })

variable {s t : Sys β}

theorem advance_move {ticket : ℕ} {a : Acquire} (ha : s.acquires ticket = some a) (h : s.advance ticket a = some t) :
    Move s (.advance ticket) t := by
  rw [advance] at h
  cases hphase : a.phase with
  | entering =>
      rw [hphase] at h
      cases h
      exact .joined ha hphase
  | checking =>
      rw [hphase] at h
      cases h
      by_cases hlate : a.deadline < s.clock
      · rw [if_pos hlate]
        exact .waited ha (by rw [hphase]; rfl) rfl (by simp [Phase.isTrying]) rfl rfl
      · rw [if_neg hlate]
        exact .waited ha (by rw [hphase]; rfl) rfl (fun _ => not_lt.mp hlate) rfl rfl
  | expired =>
      rw [hphase] at h
      cases h
      exact .waited ha (by rw [hphase]; rfl) rfl (by simp [Phase.isTrying]) rfl rfl
  | trying =>
      rw [hphase] at h
      have hwaiters := Limiter.tryReserve_waiters a.weight (some ticket) s.clock s.limiter
      have hissued := @Limiter.tryReserve_issued _ _ a.weight (some ticket) s.clock s.limiter
      have hfirst := @Limiter.tryReserve_first _ _ a.weight (some ticket) s.clock s.limiter
      generalize s.limiter.tryReserve a.weight (some ticket) s.clock = r at h hwaiters hissued hfirst
      obtain ⟨attempt, l⟩ := r
      cases attempt with
      | invalid message =>
          cases h
          exact .waited ha (by rw [hphase]; rfl) rfl (by simp [Phase.isTrying]) hwaiters (hissued (by simp))
      | reserved slot =>
          cases h
          exact .granted ha hphase (hfirst rfl) hwaiters
      | refused retryAfter =>
          cases h
          exact .waited ha (by rw [hphase]; rfl) rfl (by simp [Phase.isTrying]) hwaiters (hissued (by simp))
  | refused retryAfter =>
      rw [hphase] at h
      dsimp only at h
      split at h
      · cases h
        exact .waited ha (by rw [hphase]; rfl) rfl (by simp [Phase.isTrying]) rfl rfl
      · cases h
        exact .waited ha (by rw [hphase]; rfl) rfl (by simp [Phase.isTrying]) rfl rfl
  | sleeping seconds =>
      rw [hphase] at h
      cases h
      exact .waited ha (by rw [hphase]; rfl) rfl (by simp [Phase.isTrying]) rfl rfl
  | leaving outcome =>
      rw [hphase] at h
      cases h
      exact .departed ha hphase
  | left outcome =>
      rw [hphase] at h
      cases h

/-- A synchronous caller is granted a reservation only past an empty queue. -/
theorem reserve_move (a : Action) (weight : ℤ) (ha : ∀ ticket, a ≠ .advance ticket) :
    Move s a { s with limiter := (s.limiter.reserve weight s.clock).2 } := by
  rw [Limiter.reserve_limiter]
  have hwaiters := Limiter.tryReserve_waiters weight none s.clock s.limiter
  by_cases hgranted : ∃ slot, (s.limiter.tryReserve weight none s.clock).1 = .reserved slot
  · obtain ⟨slot, hslot⟩ := hgranted
    have hempty : s.limiter.waiters = [] := by
      rcases Limiter.tryReserve_first hslot with hempty | hhead
      · exact hempty
      · exact List.head?_eq_none_iff.mp hhead
    exact .synchronous ha hempty hwaiters
  · exact .quiet hwaiters (Limiter.tryReserve_issued (not_exists.mp hgranted))

theorem step_move {a : Action} (h : s.step a = some t) : Move s a t := by
  cases a with
  | tick now =>
      obtain ⟨hnow, rfl⟩ : s.clock ≤ now ∧ { s with clock := now } = t := by simpa [step] using h
      exact .ticked hnow
  | reserve weight =>
      cases h
      exact reserve_move _ weight (by simp)
  | acquire weight deadline =>
      cases h
      rw [acquire]
      split
      · exact reserve_move _ weight (by simp)
      · exact .began
  | advance ticket =>
      obtain ⟨a, ha, hadvance⟩ := Option.bind_eq_some_iff.mp h
      exact advance_move ha hadvance
  | cancel ticket =>
      rw [step] at h
      split at h
      · next a ha =>
          split at h
          · next hphase =>
              cases h
              exact .waited ha (by rw [hphase]; rfl) rfl (by simp [Phase.isTrying]) rfl rfl
          · cases h
      · cases h
  | start slot =>
      have hqueue := Limiter.start_queue slot s.clock s.limiter
      rw [step] at h
      split at h
      · split at h <;> rename_i heq <;> cases h <;> rw [heq] at hqueue
        · exact .quiet hqueue.1 hqueue.2
        · exact .quiet hqueue.1 hqueue.2
      · cases h
  | release slot =>
      rw [step] at h
      split at h
      · cases h
        exact .quiet rfl rfl
      · cases h

/-- The tickets that join the queue between two states. -/
def joined (s t : Sys β) : List ℕ := t.limiter.waiters.filter (· ∉ s.limiter.waiters)

/-- What a view sees of every step of a run, in order. -/
def history (view : Sys β → Sys β → List ℕ) : Sys β → List Action → List ℕ
  | _, [] => []
  | s, a :: actions =>
    match step s a with
    | some t => view s t ++ history view t actions
    | none => []

/-- The tickets in the order in which they joined the queue. -/
def arrivals : Sys β → List Action → List ℕ := history joined

/-- The tickets in the order in which they left the queue. -/
def departures : Sys β → List Action → List ℕ := history (fun s t => joined t s)

theorem history_snoc (view : Sys β → Sys β → List ℕ) {u : Sys β} {a : Action} {actions : List Action}
    (hrun : run step s actions = some t) (hstep : step t a = some u) :
    history view s (actions ++ [a]) = history view s actions ++ view t u := by
  induction actions generalizing s with
  | nil =>
      cases hrun
      simp [history, hstep]
  | cons b actions ih =>
      obtain ⟨v, hv, hrest⟩ := Option.bind_eq_some_iff.mp hrun
      simp [history, hv, ih hrest]

omit [InMemoryBucket β] in
theorem joined_same (h : t.limiter.waiters = s.limiter.waiters) : joined s t = [] ∧ joined t s = [] := by
  simp [joined, h]

/-- The record of the arrivals and the departures agrees with the queue and with where each call is. -/
structure Recorded (arrived departed : List ℕ) (s : Sys β) : Prop where
  queue : s.limiter.waiters = arrived.filter (· ∉ departed)
  arrived_nodup : arrived.Nodup
  departed_nodup : departed.Nodup
  came : ∀ ticket, ticket ∈ arrived ↔ (s.acquires ticket).any (fun a => !a.phase.isEntering) = true
  gone : ∀ ticket, ticket ∈ departed ↔ (s.acquires ticket).any (fun a => a.phase.isLeft) = true
  fresh : ∀ ticket, s.tickets ≤ ticket → s.acquires ticket = none

omit [InMemoryBucket β] in
theorem move_any (p : Acquire → Bool) (s : Sys β) (ticket other : ℕ) (a : Acquire) (phase : Phase) (l : Limiter β) :
    ((s.move ticket a phase l).acquires other).any p =
      if other = ticket then p { a with phase := phase } else (s.acquires other).any p := by
  by_cases hother : other = ticket
  · subst hother
    simp [move]
  · simp [move, hother]

namespace Recorded

variable {arrived departed : List ℕ}

theorem init (policy : RateLimitPolicy) (clock : ℚ) : Recorded [] [] (.init policy clock : Sys β) where
  queue := rfl
  arrived_nodup := .nil
  departed_nodup := .nil
  came := fun _ => by simp [Sys.init]
  gone := fun _ => by simp [Sys.init]
  fresh := fun _ _ => rfl

omit [InMemoryBucket β]

theorem lt_tickets (h : Recorded arrived departed s) {ticket : ℕ} {a : Acquire} (ha : s.acquires ticket = some a) :
    ticket < s.tickets := by
  by_contra hfresh
  rw [h.fresh ticket (not_lt.mp hfresh)] at ha
  cases ha

theorem mem_waiters (h : Recorded arrived departed s) {ticket : ℕ} {a : Acquire} (ha : s.acquires ticket = some a) :
    ticket ∈ s.limiter.waiters ↔ a.phase.queued = true := by
  rw [h.queue, List.mem_filter, decide_eq_true_eq, h.came, h.gone, ha]
  simp [Phase.queued]

theorem waiters_nodup (h : Recorded arrived departed s) : s.limiter.waiters.Nodup := by
  rw [h.queue]
  exact h.arrived_nodup.filter _

/-- A step that leaves the queue alone, and every ticket in or out of it. -/
theorem same (h : Recorded arrived departed s) (hwaiters : t.limiter.waiters = s.limiter.waiters)
    (hcame : ∀ ticket, (t.acquires ticket).any (fun a => !a.phase.isEntering) =
      (s.acquires ticket).any (fun a => !a.phase.isEntering))
    (hgone : ∀ ticket, (t.acquires ticket).any (fun a => a.phase.isLeft) =
      (s.acquires ticket).any (fun a => a.phase.isLeft))
    (hfresh : ∀ ticket, t.tickets ≤ ticket → t.acquires ticket = none) :
    Recorded (arrived ++ joined s t) (departed ++ joined t s) t := by
  rw [(joined_same hwaiters).1, (joined_same hwaiters).2, List.append_nil, List.append_nil]
  exact ⟨hwaiters.trans h.queue, h.arrived_nodup, h.departed_nodup, fun ticket => by rw [hcame, h.came],
    fun ticket => by rw [hgone, h.gone], hfresh⟩

theorem move_fresh (h : Recorded arrived departed s) {ticket : ℕ} {a : Acquire} (ha : s.acquires ticket = some a)
    (phase : Phase) (l : Limiter β) (other : ℕ) (hother : s.tickets ≤ other) :
    (s.move ticket a phase l).acquires other = none := by
  have hlt := h.lt_tickets ha
  have hne : other ≠ ticket := by omega
  simp [move, hne, h.fresh other hother]

theorem moved (h : Recorded arrived departed s) {ticket : ℕ} {a : Acquire} {phase : Phase} {l : Limiter β}
    (ha : s.acquires ticket = some a) (hbefore : a.phase.queued) (hafter : phase.queued)
    (hwaiters : l.waiters = s.limiter.waiters) :
    Recorded (arrived ++ joined s (s.move ticket a phase l)) (departed ++ joined (s.move ticket a phase l) s)
      (s.move ticket a phase l) := by
  simp only [Phase.queued, Bool.and_eq_true, Bool.not_eq_true'] at hbefore hafter
  refine h.same hwaiters (fun other => ?_) (fun other => ?_) (h.move_fresh ha phase l)
  · rw [move_any]
    split
    · next heq => simp [heq, ha, hbefore.1, hafter.1]
    · rfl
  · rw [move_any]
    split
    · next heq => simp [heq, ha, hbefore.2, hafter.2]
    · rfl

theorem join (h : Recorded arrived departed s) {ticket : ℕ} {a : Acquire} (ha : s.acquires ticket = some a)
    (hphase : a.phase = .entering) {u : Sys β}
    (hu : u = s.move ticket a .checking { s.limiter with waiters := s.limiter.waiters ++ [ticket] }) :
    Recorded (arrived ++ joined s u) (departed ++ joined u s) u := by
  have hnew : ticket ∉ s.limiter.waiters := by simp [h.mem_waiters ha, hphase, Phase.queued, Phase.isEntering]
  have hcame : ticket ∉ arrived := by simp [h.came, ha, hphase, Phase.isEntering]
  have hgone : ticket ∉ departed := by simp [h.gone, ha, hphase, Phase.isLeft]
  have hwaiters : u.limiter.waiters = s.limiter.waiters ++ [ticket] := by rw [hu]; rfl
  have hjoined : joined s u = [ticket] := by simp [joined, hwaiters, List.filter_append, hnew]
  have hleft : joined u s = [] := by
    rw [joined, hwaiters, List.filter_eq_nil_iff]
    intro other hother
    simp [hother]
  rw [hjoined, hleft, List.append_nil]
  refine ⟨?_, ?_, h.departed_nodup, fun other => ?_, fun other => ?_, ?_⟩
  · rw [hwaiters, h.queue, List.filter_append]
    simp [hgone]
  · exact List.nodup_append_comm.mp (List.nodup_cons.mpr ⟨hcame, h.arrived_nodup⟩)
  · rw [hu, move_any, List.mem_append, List.mem_singleton, h.came]
    split
    · next heq => simp [heq, Phase.isEntering]
    · next hne => simp [hne]
  · rw [hu, move_any, h.gone]
    split
    · next heq => simp [heq, ha, hphase, Phase.isLeft]
    · rfl
  · rw [hu]
    exact h.move_fresh ha _ _

/-- A waiter that leaves takes its ticket, and no other, out of the queue. -/
theorem leaves (h : Recorded arrived departed s) {ticket : ℕ} {a : Acquire} {outcome : Outcome}
    (ha : s.acquires ticket = some a) (hphase : a.phase = .leaving outcome) {u : Sys β}
    (hu : u = s.move ticket a (.left outcome) { s.limiter with waiters := s.limiter.waiters.erase ticket }) :
    u.limiter.waiters = s.limiter.waiters.filter (· != ticket) ∧ joined u s = [ticket] := by
  have hin : ticket ∈ s.limiter.waiters := by
    simp [h.mem_waiters ha, hphase, Phase.queued, Phase.isEntering, Phase.isLeft]
  have hwaiters : u.limiter.waiters = s.limiter.waiters.filter (· != ticket) := by
    rw [hu]
    exact h.waiters_nodup.erase_eq_filter ticket
  have hsame : joined u s = s.limiter.waiters.filter (· == ticket) := by
    rw [joined, hwaiters]
    apply List.filter_congr
    intro other hother
    by_cases heq : other = ticket <;> simp [List.mem_filter, hother, heq]
  refine ⟨hwaiters, ?_⟩
  rw [hsame, List.filter_beq, List.count_eq_one_of_mem h.waiters_nodup hin, List.replicate_one]

theorem leave (h : Recorded arrived departed s) {ticket : ℕ} {a : Acquire} {outcome : Outcome}
    (ha : s.acquires ticket = some a) (hphase : a.phase = .leaving outcome) {u : Sys β}
    (hu : u = s.move ticket a (.left outcome) { s.limiter with waiters := s.limiter.waiters.erase ticket }) :
    Recorded (arrived ++ joined s u) (departed ++ joined u s) u := by
  obtain ⟨hwaiters, hleft⟩ := h.leaves ha hphase hu
  have hgone : ticket ∉ departed := by simp [h.gone, ha, hphase, Phase.isLeft]
  have hjoined : joined s u = [] := by
    rw [joined, hwaiters, List.filter_eq_nil_iff]
    intro other hother
    simp [(List.mem_filter.mp hother).1]
  rw [hjoined, hleft, List.append_nil]
  refine ⟨?_, h.arrived_nodup, ?_, fun other => ?_, fun other => ?_, ?_⟩
  · rw [hwaiters, h.queue, List.filter_filter]
    apply List.filter_congr
    intro other _
    by_cases heq : other = ticket <;> simp [heq]
  · exact List.nodup_append_comm.mp (List.nodup_cons.mpr ⟨hgone, h.departed_nodup⟩)
  · rw [hu, move_any, h.came]
    split
    · next heq => simp [heq, ha, hphase, Phase.isEntering]
    · rfl
  · rw [hu, move_any, List.mem_append, List.mem_singleton, h.gone]
    split
    · next heq => simp [heq, Phase.isLeft]
    · next hne => simp [hne]
  · rw [hu]
    exact h.move_fresh ha _ _

theorem begin (h : Recorded arrived departed s) (weight : ℤ) (deadline : ℚ) {u : Sys β}
    (hu : u = { s with
      acquires := Function.update s.acquires s.tickets (some ⟨weight, deadline, .entering⟩)
      tickets := s.tickets + 1 }) :
    Recorded (arrived ++ joined s u) (departed ++ joined u s) u := by
  have hnone := h.fresh s.tickets (le_refl _)
  subst hu
  refine h.same rfl (fun other => ?_) (fun other => ?_) (fun other hother => ?_)
  · by_cases hother : other = s.tickets
    · subst hother
      simp [hnone, Phase.isEntering]
    · simp [hother]
  · by_cases hother : other = s.tickets
    · subst hother
      simp [hnone, Phase.isLeft]
    · simp [hother]
  · have hlt : s.tickets < other := hother
    simp [hlt.ne', h.fresh other hlt.le]

end Recorded

omit [InMemoryBucket β] in
theorem Move.recorded {arrived departed : List ℕ} {a : Action} (h : Move s a t) (hs : Recorded arrived departed s) :
    Recorded (arrived ++ Sys.joined s t) (departed ++ Sys.joined t s) t := by
  cases h with
  | ticked => exact hs.same rfl (fun _ => rfl) (fun _ => rfl) hs.fresh
  | quiet hwaiters => exact hs.same hwaiters (fun _ => rfl) (fun _ => rfl) hs.fresh
  | synchronous _ _ hwaiters => exact hs.same hwaiters (fun _ => rfl) (fun _ => rfl) hs.fresh
  | began => exact hs.begin _ _ rfl
  | joined ha hphase => exact hs.join ha hphase rfl
  | waited ha hbefore hafter _ hwaiters => exact hs.moved ha hbefore hafter hwaiters
  | granted ha hphase _ hwaiters => exact hs.moved ha (by rw [hphase]; rfl) rfl hwaiters
  | departed ha hphase => exact hs.leave ha hphase rfl

theorem run_recorded {policy : RateLimitPolicy} {clock : ℚ} {actions : List Action}
    (h : run step (init policy clock : Sys β) actions = some s) :
    Recorded (arrivals (init policy clock : Sys β) actions) (departures (init policy clock : Sys β) actions) s := by
  induction actions using List.reverseRecOn generalizing s with
  | nil =>
      cases h
      exact .init policy clock
  | append_singleton actions a ih =>
      obtain ⟨t, hrun, hstep⟩ := Option.bind_eq_some_iff.mp (run_append _ _ _ ▸ h)
      have hlast : step t a = some s := by simpa [run] using hstep
      rw [arrivals, departures, history_snoc _ hrun hlast, history_snoc _ hrun hlast]
      exact (step_move hlast).recorded (ih hrun)

/-- A reservation is granted past an empty queue, or to the waiter that has been in it longest. -/
def Served (arrived : List ℕ) (s : Sys β) : Action → Prop
  | .advance ticket =>
    ticket ∈ s.limiter.waiters ∧ ∀ earlier, [earlier, ticket].Sublist arrived → earlier ∉ s.limiter.waiters
  | _ => s.limiter.waiters = []

omit [InMemoryBucket β] in
theorem first_of_head {xs : List ℕ} {p : ℕ → Bool} {a b : ℕ} (hxs : xs.Nodup) (hhead : (xs.filter p).head? = some b)
    (h : [a, b].Sublist xs) : a ∉ xs.filter p := by
  intro ha
  have hb : b ∈ xs.filter p := List.mem_of_head? hhead
  have hfiltered : [a, b].Sublist (xs.filter p) := by
    have hkept : [a, b].filter p = [a, b] := by simp [(List.mem_filter.mp ha).2, (List.mem_filter.mp hb).2]
    rw [← hkept]
    exact h.filter p
  have hne : a ≠ b := by simpa using h.nodup hxs
  have hnodup := hxs.filter p
  cases hrest : xs.filter p with
  | nil => simp [hrest] at hhead
  | cons c rest =>
      rw [hrest] at hhead hfiltered hnodup
      obtain rfl : c = b := by simpa using hhead
      have hlater : [a, c].Sublist rest := List.Sublist.of_cons_of_ne hne hfiltered
      exact (List.nodup_cons.mp hnodup).1 (hlater.subset (by simp))

omit [InMemoryBucket β] in
/-- A grant keeps to the order of arrival, whatever the interleaving. -/
theorem Move.served {arrived departed : List ℕ} {a : Action} (h : Move s a t) (hs : Recorded arrived departed s)
    (hgrant : t.limiter.issued ≠ s.limiter.issued) : Served arrived s a := by
  cases h with
  | ticked => exact absurd rfl hgrant
  | quiet _ hissued => exact absurd hissued hgrant
  | synchronous ha hempty =>
      cases a with
      | advance ticket => exact absurd rfl (ha ticket)
      | _ => exact hempty
  | began => exact absurd rfl hgrant
  | joined => exact absurd rfl hgrant
  | waited _ _ _ _ _ hissued => exact absurd hissued hgrant
  | departed => exact absurd rfl hgrant
  | @granted ticket acquire slot l ha hphase hfirst =>
      have hin : ticket ∈ s.limiter.waiters := (hs.mem_waiters ha).mpr (by rw [hphase]; rfl)
      refine ⟨hin, fun earlier hearlier => ?_⟩
      have hhead : s.limiter.waiters.head? = some ticket := by
        rcases hfirst with hempty | hhead
        · rw [hempty] at hin
          cases hin
        · exact hhead
      rw [hs.queue] at hhead ⊢
      exact first_of_head hs.arrived_nodup hhead hearlier

/-- The clock does not pass the deadline of a waiter that has checked it and not yet tried. -/
def Careful (s : Sys β) (a : Action) (_ : Sys β) : Prop :=
  match a with
  | .tick now => ∀ ticket < s.tickets, ∀ a ∈ s.acquires ticket, a.phase.isTrying → now ≤ a.deadline
  | _ => True

instance (s : Sys β) (a : Action) (t : Sys β) : Decidable (Careful s a t) :=
  match a with
  | .tick now =>
    inferInstanceAs (Decidable (∀ ticket < s.tickets, ∀ a ∈ s.acquires ticket, a.phase.isTrying → now ≤ a.deadline))
  | .reserve _ | .acquire _ _ | .advance _ | .cancel _ | .start _ | .release _ => .isTrue trivial

def InTime (s : Sys β) : Prop :=
  ∀ ticket a, s.acquires ticket = some a → a.phase.isTrying → s.clock ≤ a.deadline

omit [InMemoryBucket β] in
theorem InTime.move (h : InTime s) {ticket : ℕ} {a : Acquire} {phase : Phase} (l : Limiter β)
    (htrying : phase.isTrying → s.clock ≤ a.deadline) : InTime (s.move ticket a phase l) := by
  intro other b hb
  by_cases hother : other = ticket
  · subst hother
    obtain rfl : { a with phase := phase } = b := by simpa [Sys.move] using hb
    exact htrying
  · exact h other b (by simpa [Sys.move, hother] using hb)

omit [InMemoryBucket β] in
theorem Move.inTime {arrived departed : List ℕ} {a : Action} (h : Move s a t) (hs : Recorded arrived departed s)
    (hcareful : Careful s a t) (hin : InTime s) : InTime t := by
  cases h with
  | ticked => exact fun ticket b hb => hcareful ticket (hs.lt_tickets hb) b hb
  | quiet => exact hin
  | synchronous => exact hin
  | began =>
      intro other b hb
      by_cases hother : other = s.tickets
      · subst hother
        simp only [Function.update_self, Option.some.injEq] at hb
        subst hb
        exact nofun
      · exact hin other b (by simpa [hother] using hb)
  | joined => exact hin.move _ nofun
  | waited _ _ _ htrying => exact hin.move _ htrying
  | granted => exact hin.move _ nofun
  | departed => exact hin.move _ nofun

theorem careful_inTime {policy : RateLimitPolicy} {clock : ℚ} {actions : List Action}
    (h : Path step Careful (init policy clock : Sys β) actions s) : InTime s := by
  have hrun : (∃ arrived departed, Recorded arrived departed s) ∧ InTime s := by
    refine h.invariant (P := fun u => (∃ arrived departed, Recorded arrived departed u) ∧ InTime u)
      ⟨⟨[], [], .init policy clock⟩, nofun⟩ ?_
    rintro u a v ⟨⟨arrived, departed, hrecorded⟩, hin⟩ hstep hcareful
    have hmove := step_move hstep
    exact ⟨⟨_, _, hmove.recorded hrecorded⟩, hmove.inTime hrecorded hcareful hin⟩
  exact hrun.2

omit [InMemoryBucket β] in
theorem Move.granted_inTime {ticket : ℕ} {a : Acquire} (h : Move s (.advance ticket) t) (hin : InTime s)
    (ha : s.acquires ticket = some a) (hgrant : t.limiter.issued ≠ s.limiter.issued) : s.clock ≤ a.deadline := by
  cases h with
  | quiet _ hissued => exact absurd hissued hgrant
  | synchronous hnot => exact absurd rfl (hnot ticket)
  | began => exact absurd rfl hgrant
  | joined => exact absurd rfl hgrant
  | waited _ _ _ _ _ hissued => exact absurd hissued hgrant
  | departed => exact absurd rfl hgrant
  | granted hb hphase =>
      cases ha.symm.trans hb
      exact hin ticket a ha (by rw [hphase]; rfl)

/-- Waiters are served in the order of their arrival and leave once. None is granted past
its deadline where the clock does not pass it between its check and its attempt. -/
theorem waiters_in_order (policy : RateLimitPolicy) (clock : ℚ) {actions : List Action}
    (h : run step (init policy clock : Sys β) actions = some s) :
    s.limiter.waiters = (arrivals (init policy clock : Sys β) actions).filter
      (· ∉ departures (init policy clock : Sys β) actions) ∧
    (arrivals (init policy clock : Sys β) actions).Nodup ∧
    (∀ ticket, (departures (init policy clock : Sys β) actions).count ticket =
      if (s.acquires ticket).any (fun a => a.phase.isLeft) then 1 else 0) ∧
    (∀ ticket a outcome, s.acquires ticket = some a → a.phase = .leaving outcome →
      ∃ t, step s (.advance ticket) = some t ∧ joined t s = [ticket] ∧
        t.limiter.waiters = s.limiter.waiters.erase ticket) ∧
    (∀ a t, step s a = some t → t.limiter.issued ≠ s.limiter.issued →
      Served (arrivals (init policy clock : Sys β) actions) s a) ∧
    (Path step Careful (init policy clock : Sys β) actions s →
      ∀ ticket a t, s.acquires ticket = some a → step s (.advance ticket) = some t →
        t.limiter.issued ≠ s.limiter.issued → s.clock ≤ a.deadline) := by
  have hs := run_recorded h
  refine ⟨hs.queue, hs.arrived_nodup, fun ticket => ?_, ?_, ?_, ?_⟩
  · rw [hs.departed_nodup.count]
    simp only [hs.gone ticket]
  · intro ticket a outcome ha hphase
    have hstep : step s (.advance ticket) =
        some (s.move ticket a (.left outcome) { s.limiter with waiters := s.limiter.waiters.erase ticket }) := by
      rw [step, ha, Option.bind_some, advance, hphase]
    exact ⟨_, hstep, (hs.leaves ha hphase rfl).2, rfl⟩
  · intro a t hstep hgrant
    exact (step_move hstep).served hs hgrant
  · intro hcareful ticket a t ha hstep hgrant
    exact (step_move hstep).granted_inTime (careful_inTime hcareful) ha hgrant

/-- The deadline of a waiter passes after it was checked and before the attempt reads the clock again. -/
theorem late_grant : ¬ ∀ (policy : RateLimitPolicy) (clock : ℚ) (actions : List Action) (s : Sys ListBucket),
    0 < policy.maxWaitSeconds → run step (init policy clock) actions = some s →
    ∀ ticket a t, s.acquires ticket = some a → step s (.advance ticket) = some t →
      t.limiter.issued ≠ s.limiter.issued → s.clock ≤ a.deadline := by
  intro hall
  have hrun : (run step (init samplePolicy 0 : Sys ListBucket)
      [.acquire 1 none, .advance 0, .advance 0, .tick 10]).any (fun s =>
        (s.acquires 0).any (fun a => a.deadline = 5) && s.clock = 10 && s.limiter.issued = 0 &&
          (step s (.advance 0)).any (fun t => t.limiter.issued = 1)) = true := by decide +kernel
  obtain ⟨s, hs, hfacts⟩ := (Option.any_eq_true _ _).mp hrun
  simp only [Bool.and_eq_true, decide_eq_true_eq, Option.any_eq_true] at hfacts
  obtain ⟨⟨⟨⟨a, ha, hdeadline⟩, hclock⟩, hnone⟩, ⟨t, ht, hone⟩⟩ := hfacts
  have hle := hall samplePolicy 0 _ s (by decide +kernel) hs 0 a t ha ht (by omega)
  rw [hclock, hdeadline] at hle
  exact absurd hle (by norm_num)

/-- A place is taken and two waiters queue for the next one, the second to begin before the first.
The later one is cancelled, and the earlier one is about to try again. -/
def queueActions : List Action :=
  [.reserve 1, .start 0, .acquire 1 none, .acquire 1 none] ++ List.replicate 4 (.advance 1) ++
    List.replicate 4 (.advance 0) ++ [.tick (1 / 20), .cancel 0, .advance 0, .advance 1, .advance 1]

theorem queue_run : (run (restrict step Careful) (init samplePolicy 0 : Sys ListBucket) queueActions).any (fun s =>
    (s.acquires 1).any (fun a => a.deadline = 5) && s.limiter.issued = 1 &&
      (step s (.advance 1)).any (fun t => t.limiter.issued = 2)) = true := by decide +kernel

theorem queue_arrivals : arrivals (init samplePolicy 0 : Sys ListBucket) queueActions = [1, 0] ∧
    departures (init samplePolicy 0 : Sys ListBucket) queueActions = [0] := by decide +kernel

theorem waiters_in_order_sample : ∃ s : Sys ListBucket, run step (init samplePolicy 0) queueActions = some s ∧
    s.limiter.waiters = [1] ∧ Served [1, 0] s (.advance 1) ∧ s.clock ≤ 5 := by
  obtain ⟨s, hs, hfacts⟩ := (Option.any_eq_true _ _).mp queue_run
  simp only [Bool.and_eq_true, decide_eq_true_eq, Option.any_eq_true] at hfacts
  obtain ⟨⟨⟨a, ha, hdeadline⟩, hone⟩, ⟨t, ht, htwo⟩⟩ := hfacts
  have hcareful : Path step Careful (init samplePolicy 0) queueActions s := path_of_restricted hs
  obtain ⟨hqueue, -, -, -, hserved, hintime⟩ := waiters_in_order samplePolicy 0 hcareful.run_eq
  rw [queue_arrivals.1] at hserved
  rw [queue_arrivals.1, queue_arrivals.2] at hqueue
  exact ⟨s, hcareful.run_eq, hqueue, hserved _ t ht (by omega), hdeadline ▸ hintime hcareful 1 a t ha ht (by omega)⟩

end Sys

end MoomooMcp.RateLimit
