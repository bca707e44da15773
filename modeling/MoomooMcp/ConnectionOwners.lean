import Mathlib.Data.Int.Basic
import Mathlib.Data.List.Nodup
import Mathlib.Data.List.Perm.Subperm
import MoomooMcp.TradeConnection

namespace MoomooMcp.TradeConnection

open Machine

variable {s t : Service} {a : Action} {as : List Action} {c : Ctx}

/-- What one element adds to a filtered list, and what another one in its place does. -/
theorem count_filterMap_set {α β : Type} [DecidableEq β] (f : α → Option β) (b : β) (x : α) {l : List α} {i : ℕ} {p : α}
    (h : l[i]? = some p) :
    ((l.set i x).filterMap f).count b + (f p).toList.count b = (l.filterMap f).count b + (f x).toList.count b := by
  have hcons : ∀ y l, ((y :: l).filterMap f).count b = (f y).toList.count b + (l.filterMap f).count b := by
    intro y l
    rw [List.filterMap_cons]
    cases f y with
    | none => simp
    | some z => simp [List.count_cons, Nat.add_comm]
  induction l generalizing i with
  | nil => cases h
  | cons y l ih =>
      cases i with
      | zero =>
          cases h
          rw [List.set_cons_zero, hcons, hcons]
          omega
      | succ i =>
          have hrest := ih h
          rw [List.set_cons_succ, hcons, hcons]
          omega

theorem count_places (s : Service) (c : Ctx) : s.places.count c =
    (s.workers.filterMap Phase.holds).count c + s.tradeCtx.toList.count c + s.closers.count c + s.released.count c := by
  simp only [Service.places, List.count_append]

/-- Where the contexts go in one step: a new one may come, and one may be dropped. -/
structure Moves (s : Service) (a : Action) (t : Service) (new dropped : List Ctx) : Prop where
  constructed : t.constructed = s.constructed ++ new
  nodup : new.Nodup
  fresh : ∀ c ∈ new, c ∉ s.constructed
  places : ∀ c, t.places.count c + dropped.count c = s.places.count c + new.count c
  careful : dropped = [] ↔ Careful s a t

theorem connect_moves (starts : Bool) : Moves s (.connect starts) (connect s starts) [] [] := by
  refine ⟨?_, List.nodup_nil, nofun, fun c => ?_, iff_of_true rfl trivial⟩
  · unfold connect
    dsimp only
    split
    · exact (List.append_nil _).symm
    · exact (List.append_nil _).symm
  · unfold connect
    dsimp only
    split
    · rfl
    · have hnone : [Phase.constructing].filterMap Phase.holds = [] := rfl
      simp only [count_places, List.filterMap_append, hnone, List.append_nil]

theorem close_moves : Moves s .close (close s) [] [] := by
  refine ⟨(List.append_nil _).symm, List.nodup_nil, nofun, fun c => ?_, iff_of_true rfl trivial⟩
  simp only [close, count_places, List.count_append, Option.toList_none, List.count_nil]
  omega

theorem release_moves (h : c ∈ s.closers) :
    Moves s (.release c) { s with closers := s.closers.erase c, released := s.released ++ [c] } [] [] := by
  refine ⟨(List.append_nil _).symm, List.nodup_nil, nofun, fun c' => ?_, iff_of_true rfl trivial⟩
  have hpos : 1 ≤ s.closers.count c := List.count_pos_iff.mpr h
  simp only [count_places, List.count_append, List.count_nil, List.count_erase, List.count_singleton]
  by_cases hc : c = c'
  · subst hc
    simp only [beq_self_eq_true, if_true]
    omega
  · simp only [beq_iff_eq, hc, if_false]
    omega

section Workers

variable {w : ℕ} {ph : Phase} (hw : s.workers[w]? = some ph)

include hw

theorem count_at (ph' : Phase) (c : Ctx) : (s.at w ph').places.count c + ph.holds.toList.count c =
    s.places.count c + ph'.holds.toList.count c := by
  have hset := count_filterMap_set Phase.holds c ph' hw
  simp only [Service.at, count_places]
  omega

/-- A worker that keeps what it holds, or lets go of it. -/
theorem at_moves {ph' : Phase} {dropped : List Ctx} {outcome : Outcome}
    (hcount : ∀ c, ph'.holds.toList.count c + dropped.count c = ph.holds.toList.count c)
    (hcareful : dropped = [] ↔ Careful s (.work w outcome) (s.at w ph')) :
    Moves s (.work w outcome) (s.at w ph') [] dropped := by
  refine ⟨(List.append_nil _).symm, List.nodup_nil, nofun, fun c => ?_, hcareful⟩
  have hat := count_at hw ph' c
  have hc := hcount c
  rw [List.count_nil]
  omega

/-- A worker that closes the context it holds. -/
theorem discard_moves {ctx : Ctx} {outcome : Outcome} (hholds : ph.holds = some ctx)
    (hcareful : ∀ t, Careful s (.work w outcome) t) :
    Moves s (.work w outcome) { s.at w .done with released := s.released ++ [ctx] } [] [] := by
  refine ⟨(List.append_nil _).symm, List.nodup_nil, nofun, fun c => ?_, iff_of_true rfl (hcareful _)⟩
  have hat := count_at hw .done c
  rw [hholds] at hat
  simp only [count_places, Service.at, Phase.holds, Option.toList_none, Option.toList_some, List.count_nil,
    List.count_append] at hat ⊢
  omega

end Workers

/-- A call that raises drops the context of a worker that has no guard around it. -/
theorem careful_raised {w : ℕ} {ph : Phase} (hw : s.workers[w]? = some ph)
    (h : ∀ ctx, ph ≠ .configuring ctx ∧ ph ≠ .watching ctx) (t : Service) : Careful s (.work w .raised) t := by
  intro ctx
  rw [hw]
  exact ⟨fun he => (h ctx).1 (Option.some.inj he), fun he => (h ctx).2 (Option.some.inj he)⟩

theorem careful_returned {w : ℕ} {ph : Phase} (hw : s.workers[w]? = some ph) (h : ∀ ctx, ph ≠ .publishing ctx)
    (t : Service) : Careful s (.work w .returned) t := by
  intro ctx he
  rw [hw] at he
  exact absurd (Option.some.inj he) (h ctx)

theorem openTradeContext_moves {w : ℕ} {ph : Phase} {outcome : Outcome} (hw : s.workers[w]? = some ph)
    (h : openTradeContext s w ph outcome = some t) : ∃ new dropped, Moves s (.work w outcome) t new dropped := by
  cases ph with
  | constructing =>
      cases outcome with
      | constructed ctx =>
          dsimp only [openTradeContext] at h
          split at h
          · cases h
          · next hnew =>
              cases h
              refine ⟨[ctx], [], rfl, List.nodup_singleton _, by simpa using hnew, fun c => ?_, iff_of_true rfl trivial⟩
              have hat := count_at hw (.configuring ctx) c
              simpa [Phase.holds, count_places, Service.at] using hat
      | returned => cases h
      | raised =>
          cases h
          exact ⟨[], [], at_moves hw (fun _ => rfl) (iff_of_true rfl (careful_raised hw (fun _ => ⟨nofun, nofun⟩) _))⟩
  | configuring ctx =>
      cases outcome with
      | constructed _ => cases h
      | returned =>
          cases h
          exact ⟨[], [], at_moves hw (fun _ => rfl) (iff_of_true rfl (careful_returned hw (fun _ => nofun) _))⟩
      | raised =>
          cases h
          refine ⟨[], [ctx], at_moves hw (fun c => ?_) (iff_of_false (List.cons_ne_nil _ _) (fun hc => (hc ctx).1 hw))⟩
          simp [Phase.holds]
  | registering ctx =>
      cases outcome with
      | constructed _ => cases h
      | returned =>
          cases h
          exact ⟨[], [], at_moves hw (fun _ => rfl) (iff_of_true rfl (careful_returned hw (fun _ => nofun) _))⟩
      | raised =>
          cases h
          exact ⟨[], [], at_moves hw (fun _ => rfl) (iff_of_true rfl (careful_raised hw (fun _ => ⟨nofun, nofun⟩) _))⟩
  | watching ctx =>
      cases outcome with
      | constructed _ => cases h
      | returned =>
          cases h
          exact ⟨[], [], at_moves hw (fun _ => rfl) (iff_of_true rfl (careful_returned hw (fun _ => nofun) _))⟩
      | raised =>
          cases h
          refine ⟨[], [ctx], at_moves hw (fun c => ?_) (iff_of_false (List.cons_ne_nil _ _) (fun hc => (hc ctx).2 hw))⟩
          simp [Phase.holds]
  | discarding ctx =>
      cases h
      refine ⟨[], [], discard_moves hw rfl (fun t => ?_)⟩
      cases outcome with
      | constructed _ => trivial
      | returned => exact careful_returned hw (fun _ => nofun) t
      | raised => exact careful_raised hw (fun _ => ⟨nofun, nofun⟩) t
  | surplus ctx =>
      cases h
      refine ⟨[], [], discard_moves hw rfl (fun t => ?_)⟩
      cases outcome with
      | constructed _ => trivial
      | returned => exact careful_returned hw (fun _ => nofun) t
      | raised => exact careful_raised hw (fun _ => ⟨nofun, nofun⟩) t
  | enforcing ctx =>
      cases h
      refine ⟨[], [], at_moves hw (fun _ => rfl) (iff_of_true rfl ?_)⟩
      cases outcome with
      | constructed _ => trivial
      | returned => exact careful_returned hw (fun _ => nofun) _
      | raised => exact careful_raised hw (fun _ => ⟨nofun, nofun⟩) _
  | publishing ctx =>
      cases outcome with
      | constructed _ => cases h
      | raised => cases h
      | returned =>
          dsimp only [openTradeContext] at h
          split at h
          · next hclosed =>
              cases h
              refine ⟨[], [], at_moves hw (fun _ => rfl) (iff_of_true rfl (fun ctx' _ hopen => ?_))⟩
              rw [hclosed] at hopen
              cases hopen
          · next hopen =>
              cases h
              refine ⟨[], s.tradeCtx.toList, (List.append_nil _).symm, List.nodup_nil, nofun, fun c => ?_, ?_⟩
              · have hat := count_at hw (.enforcing ctx) c
                simp only [count_places, Service.at, Phase.holds, Option.toList_none, Option.toList_some, List.count_nil] at hat ⊢
                omega
              · have hopen' : s.closed = false := by simpa using hopen
                rw [Option.toList_eq_nil_iff]
                exact ⟨fun hnone _ _ _ => hnone, fun hcareful => hcareful ctx hw hopen'⟩
  | done => cases outcome <;> cases h

theorem next_moves (h : next s a = some t) : ∃ new dropped, Moves s a t new dropped := by
  cases a with
  | connect starts =>
      cases h
      exact ⟨[], [], connect_moves starts⟩
  | close =>
      cases h
      exact ⟨[], [], close_moves⟩
  | release ctx =>
      dsimp only [next] at h
      split at h
      · next hmem =>
          cases h
          exact ⟨[], [], release_moves hmem⟩
      · cases h
  | work w outcome =>
      dsimp only [next] at h
      split at h
      · cases h
      · next ph hw => exact openTradeContext_moves hw h

/-- Every context constructed is in one place: with its worker, published, with a close
that has taken it, or closed. -/
structure Owned (s : Service) : Prop where
  distinct : s.constructed.Nodup
  places : s.places.Perm s.constructed

theorem owned_initial : Owned .initial := ⟨List.nodup_nil, .refl _⟩

theorem Owned.step (h : Owned s) (hstep : next s a = some t) (hcareful : Careful s a t) : Owned t := by
  obtain ⟨new, dropped, hm⟩ := next_moves hstep
  have hnone := hm.careful.mpr hcareful
  subst hnone
  refine ⟨?_, List.perm_iff_count.mpr (fun c => ?_)⟩
  · rw [hm.constructed]
    exact h.distinct.append hm.nodup (fun c hc hn => hm.fresh c hn hc)
  · have hc := hm.places c
    rw [hm.constructed, List.count_append, ← h.places.count_eq]
    simpa using hc

/-- How many contexts are in no place any more. -/
def lost (s : Service) : ℤ := (s.constructed.length : ℤ) - (s.places.length : ℤ)

theorem Owned.lost_eq (h : Owned s) : lost s = 0 := by
  rw [lost, h.places.length_eq]
  omega

theorem Moves.lost {new dropped : List Ctx} (h : Moves s a t new dropped) :
    TradeConnection.lost t = TradeConnection.lost s + dropped.length := by
  have hperm : (t.places ++ dropped).Perm (s.places ++ new) := by
    refine List.perm_iff_count.mpr (fun c => ?_)
    rw [List.count_append, List.count_append]
    exact h.places c
  have hlength := hperm.length_eq
  have hconstructed := congrArg List.length h.constructed
  rw [List.length_append, List.length_append] at hlength
  rw [List.length_append] at hconstructed
  unfold TradeConnection.lost
  omega

/-- What is lost stays lost. -/
theorem lost_path (h : Path next free s as t) : lost s ≤ lost t := by
  induction h with
  | nil => exact Int.le_refl _
  | cons hstep _ _ ih =>
      obtain ⟨new, dropped, hm⟩ := next_moves hstep
      have hlost := hm.lost
      omega

/-- Where nothing is lost, every step was careful. -/
theorem careful_of_lost (h : Path next free s as t) (hlost : lost t ≤ lost s) : Path next Careful s as t := by
  induction h with
  | nil => exact .nil _
  | @cons s u t a as hstep _ hrest ih =>
      obtain ⟨new, dropped, hm⟩ := next_moves hstep
      have hfirst := hm.lost
      have hthen := lost_path hrest
      have hnone : dropped = [] := List.length_eq_zero_iff.mp (by omega)
      exact .cons hstep (hm.careful.mp hnone) (ih (by omega))

/-- The published context stays, or is taken away, or a worker publishes its own in an open service. -/
theorem next_published (h : next s a = some t) :
    t.tradeCtx = s.tradeCtx ∧ (t.closed = true → s.closed = true) ∨ t.tradeCtx = none ∨
      ∃ w ctx, a = .work w .returned ∧ s.workers[w]? = some (.publishing ctx) ∧ s.closed = false ∧
        t.closed = false ∧ t.tradeCtx = some ctx := by
  cases a with
  | connect starts =>
      cases h
      left
      unfold connect
      dsimp only
      split
      · exact ⟨rfl, nofun⟩
      · exact ⟨rfl, nofun⟩
  | close =>
      cases h
      exact .inr (.inl rfl)
  | release ctx =>
      dsimp only [next] at h
      split at h
      · cases h
        exact .inl ⟨rfl, id⟩
      · cases h
  | work w outcome =>
      dsimp only [next] at h
      split at h
      · cases h
      · next ph hw =>
          cases ph with
          | publishing ctx =>
              cases outcome with
              | constructed _ => cases h
              | raised => cases h
              | returned =>
                  dsimp only [openTradeContext] at h
                  split at h
                  · cases h
                    exact .inl ⟨rfl, id⟩
                  · next hopen =>
                      cases h
                      have hopen' : s.closed = false := by simpa using hopen
                      exact .inr (.inr ⟨w, ctx, rfl, hw, hopen', hopen', rfl⟩)
          | constructing =>
              cases outcome with
              | constructed ctx =>
                  dsimp only [openTradeContext] at h
                  split at h
                  · cases h
                  · cases h
                    exact .inl ⟨rfl, id⟩
              | returned => cases h
              | raised =>
                  cases h
                  exact .inl ⟨rfl, id⟩
          | configuring ctx | registering ctx | watching ctx =>
              cases outcome with
              | constructed _ => cases h
              | returned | raised =>
                  cases h
                  exact .inl ⟨rfl, id⟩
          | discarding ctx | surplus ctx | enforcing ctx =>
              cases h
              exact .inl ⟨rfl, id⟩
          | done => cases outcome <;> cases h

/-- A closed service has no published context. -/
theorem closed_path (h : Path next free .initial as s) : s.closed = true → s.tradeCtx = none := by
  refine h.invariant (P := fun s => s.closed = true → s.tradeCtx = none) nofun (fun s a t hs hstep _ hclosed => ?_)
  obtain ⟨hsame, hopen⟩ | hnone | ⟨w, ctx, -, -, -, hopen, -⟩ := next_published hstep
  · rw [hsame]
    exact hs (hopen hclosed)
  · exact hnone
  · rw [hopen] at hclosed
    cases hclosed

theorem Careful.kept (hstep : next s a = some t) (h : Careful s a t) : Kept s a t := by
  intro ctx ctx' hs ht
  obtain ⟨hsame, -⟩ | hnone | ⟨w, own, rfl, hw, hopen, -, -⟩ := next_published hstep
  · rw [hsame, hs] at ht
    exact (Option.some.inj ht).symm
  · rw [hnone] at ht
    cases ht
  · have hempty : s.tradeCtx = none := h own hw hopen
    rw [hempty] at hs
    cases hs

theorem distinct_path (h : Path next free .initial as s) : s.constructed.Nodup := by
  refine h.invariant (P := fun s => s.constructed.Nodup) List.nodup_nil (fun s a t hs hstep _ => ?_)
  obtain ⟨new, dropped, hm⟩ := next_moves hstep
  rw [hm.constructed]
  exact hs.append hm.nodup (fun c hc hn => hm.fresh c hn hc)

theorem owned_path (h : Path next Careful .initial as s) : Owned s :=
  h.invariant owned_initial (fun _ _ _ hs hstep hok => hs.step hstep hok)

/-- When nothing is under way, a context is published, closed or lost. -/
theorem places_settled (h : s.Settled) : s.places = s.tradeCtx.toList ++ s.released := by
  have hnone : s.workers.filterMap Phase.holds = [] := by
    refine List.filterMap_eq_nil_iff.mpr (fun ph hph => ?_)
    rw [h.1 ph hph]
    rfl
  rw [Service.places, hnone, h.2, List.nil_append, List.append_nil]

/-- Every context has one owner as long as no step forgets one. After the last close all
of them are closed in exactly those runs. -/
theorem connection_owned_iff (h : Path next free .initial as s) :
    (Path next Careful .initial as s →
      Path next Kept .initial as s ∧ (∀ c ∈ s.constructed, s.places.count c = 1) ∧
      (s.Settled → ∀ c ∈ s.constructed, s.tradeCtx = some c ∨ c ∈ s.released)) ∧
    (s.Settled → s.closed = true →
      ((∀ c ∈ s.constructed, c ∈ s.released) ↔ Path next Careful .initial as s)) := by
  have hplaced : Path next Careful .initial as s → s.Settled → ∀ c ∈ s.constructed, s.tradeCtx = some c ∨ c ∈ s.released := by
    intro hcareful hsettled c hc
    have hmem : c ∈ s.places := (owned_path hcareful).places.mem_iff.mpr hc
    rw [places_settled hsettled, List.mem_append, Option.mem_toList] at hmem
    exact hmem
  refine ⟨fun hcareful => ⟨hcareful.mono (fun _ _ _ hstep hok => hok.kept hstep), fun c hc => ?_, hplaced hcareful⟩,
    fun hsettled hclosed => ⟨fun hall => ?_, fun hcareful c hc => ?_⟩⟩
  · have howned := owned_path hcareful
    rw [howned.places.count_eq]
    exact List.count_eq_one_of_mem howned.distinct hc
  · have hplaces := places_settled hsettled
    rw [closed_path h hclosed, Option.toList_none, List.nil_append] at hplaces
    have hlength := (List.subperm_of_subset (distinct_path h) hall).length_le
    refine careful_of_lost h ?_
    have hzero := owned_initial.lost_eq
    rw [hzero, lost, hplaces]
    omega
  · have hor := hplaced hcareful hsettled c hc
    rw [closed_path h hclosed] at hor
    exact hor.resolve_left nofun

/-- What a worker does with a context it was given to build, from the constructor on. -/
def building (w : ℕ) (ctx : Ctx) (calls : ℕ) : List Action :=
  .work w (.constructed ctx) :: List.replicate calls (.work w .returned)

/-- The first worker is late. It finishes after a close and another connect, and replaces
what the second worker has published. -/
def lateRun : List Action :=
  [.connect true, .close, .connect true] ++ building 1 1 5 ++ building 0 2 5 ++ [.close, .release 2]

def lateEnd : Service := ⟨true, none, none, [.done, .done], [], [1, 2], [2]⟩

theorem connection_lost : ¬ ∀ as s, Path next free .initial as s →
    Path next Kept .initial as s ∧ (s.Settled → s.closed = true → ∀ c ∈ s.constructed, c ∈ s.released) := by
  intro hall
  have hrun : run next .initial lateRun = some lateEnd := by decide
  have hlate := (hall lateRun lateEnd (free_of_run hrun)).2 ⟨by decide, rfl⟩ rfl 1 (by decide)
  exact absurd hlate (by decide)

/-- Here the late worker finds the service closed, and closes its context. -/
def closedRun : List Action :=
  [.connect true, .close] ++ building 0 1 5 ++ [.connect true] ++ building 1 2 5 ++ [.close, .release 2]

def closedEnd : Service := ⟨true, none, none, [.done, .done], [], [1, 2], [1, 2]⟩

theorem connection_closed :
    Path next Kept .initial closedRun closedEnd ∧ ∀ c ∈ closedEnd.constructed, closedEnd.places.count c = 1 := by
  have hrun : Path next free .initial closedRun closedEnd := free_of_run (by decide)
  obtain ⟨howned, hiff⟩ := connection_owned_iff hrun
  have hcareful := (hiff ⟨by decide, rfl⟩ rfl).mp (by decide)
  exact ⟨(howned hcareful).1, (howned hcareful).2.1⟩

end MoomooMcp.TradeConnection
