import MoomooMcp.Retention
import MoomooMcp.QuotaRuns

namespace MoomooMcp.BrokerDispatch.Sys

open Machine RateLimit

variable {β : Type} [InMemoryBucket β] {policies : PoolKey → RateLimitPolicy} {s t : Sys β} {actions : List Action}

/-- A lease that was cancelled stays so. -/
theorem move_cancelled (h : Custody policies s) (hmove : Move s t) (hcancelled : s.lease.cancelled = true) :
    t.lease.cancelled = true := by
  cases hmove with
  | leased slots ha =>
      obtain ⟨_, hlease⟩ := h.early (by rw [ha]; rfl)
      rw [hlease] at hcancelled
      cases hcancelled
  | cancelled ha hlock => rfl
  | entered purpose plan slots owned hw => cases purpose <;> exact hcancelled
  | _ => exact hcancelled

/-- Once the lease is cancelled, only calls on protected pools start. -/
theorem move_calls (hmove : Move s t) (hcancelled : s.lease.cancelled = true) :
    t.calls = s.calls ∨ ∃ k ∈ s.lease.protectedKeys, t.calls = s.calls ++ [some k] := by
  cases hmove with
  | untimed purpose hw hlock hkey hpermits =>
      unfold Lease.permits at hpermits
      rw [hcancelled] at hpermits
      cases hpermits
  | called purpose k slot pools hw hlock hkey hpermits hslot hstart =>
      unfold Lease.permits at hpermits
      rw [hcancelled] at hpermits
      exact .inr ⟨k, of_decide_eq_true hpermits, rfl⟩
  | entered purpose plan slots owned hw => cases purpose <;> exact .inl rfl
  | _ => exact .inl rfl

/-- After both sides ended, nothing of the dispatch can start, and what it did not start was returned once. -/
theorem ended_balance (h : Custody policies s) (hawaiter : s.awaiter = .ended)
    (hworker : s.worker = .absent ∨ s.worker = .queued ∨ s.worker = .ended) {x : PoolKey × ℕ} {a : Account}
    (ha : s.pools.accounts x = some a) :
    x.2 ∉ (s.pools.limiters x.1).pending ∧ a.granted = a.started + a.returned.sum ∧ a.returned.length ≤ 1 := by
  have hstack : s.stack = [] := by
    apply h.idle
    rcases hworker with hworker | hworker | hworker <;> rw [hworker] <;> rfl
  have hnone : s.holders = [] := by
    unfold holders
    rw [hawaiter, hstack]
    rcases hworker with hworker | hworker | hworker <;> rw [hworker] <;> rfl
  have hspent : s.pools.remaining x = 0 := by
    by_contra hleft
    have hmem := h.listed x (Option.isSome_of_mem ha) hleft
    rw [hnone] at hmem
    cases hmem
  refine ⟨fun hpending => (h.sound.kept x.1).mem_iff.mp hpending hspent, ?_, (h.sound.once x a ha).1⟩
  have hbalance := h.sound.balance x a ha
  rw [hspent, add_zero] at hbalance
  exact hbalance

variable [LawfulBucket β]

theorem run_invariant (h : Custody policies s ∧ Retention s) (hrun : run step s actions = some t) :
    Custody policies t ∧ Retention t :=
  (free_of_run hrun).invariant (P := fun u => Custody policies u ∧ Retention u) h
    (fun _ _ _ hu hstep _ => ⟨move_custody hu.1 (step_move hstep), move_retention hu.1 hu.2 (step_move hstep)⟩)

theorem run_cancelled (h : Custody policies s) (hrun : run step s actions = some t)
    (hcancelled : s.lease.cancelled = true) : t.lease.cancelled = true := by
  have hpath := free_of_run hrun
  have hboth : Custody policies t ∧ t.lease.cancelled = true :=
    hpath.invariant (P := fun u => Custody policies u ∧ u.lease.cancelled = true) ⟨h, hcancelled⟩
      (fun u a v hu hstep _ => ⟨move_custody hu.1 (step_move hstep), move_cancelled hu.1 (step_move hstep) hu.2⟩)
  exact hboth.2

/-- A protected mutation starts its next call on its own, whatever happened to the lease and the pools. -/
theorem perform_next {f : Frame} {m : Mutation} {below : List Frame} {c : String × Arguments}
    {rest : List (String × Arguments)} (h : Custody policies s) (hr : Retention s) (hw : s.worker = .running .service)
    (hs : s.stack = f :: below) (hf : f.mutation = some m) (hm : m.stage = .guarded (c :: rest))
    (hlock : s.awaiterLocks = false) :
    ∃ k t f' m' below', callKey c = some k ∧ run step s [.perform, .work, .work, .work, .leave, .work] = some t ∧
      t.calls = s.calls ++ [some k] ∧ t.worker = .running .service ∧ t.awaiterLocks = false ∧
      t.stack = f' :: below' ∧ f'.mutation = some m' ∧ m'.stage = .guarded rest := by
  have hsheltered := hr.sheltered f (hs ▸ List.mem_cons_self) m hf
  obtain ⟨_, hkeys, hsome⟩ := hsheltered.covered _ hm
  obtain ⟨k, hk⟩ := Option.isSome_iff_exists.mp (hsome c List.mem_cons_self)
  have hmem : k ∈ (c :: rest).filterMap callKey := List.mem_filterMap.mpr ⟨c, List.mem_cons_self, hk⟩
  obtain ⟨slot, hslot, hleft⟩ := hsheltered.left hm hmem
  have hprotected : k ∈ s.lease.protectedKeys := by
    rw [h.shielded]
    exact mem_guards (hs ▸ List.mem_cons_self) hf hm (hkeys k hmem)
  obtain ⟨pools, hstart, _⟩ := Pools.start_left h.sound (show s.pools.remaining (k, slot) ≠ 0 by omega)
  obtain ⟨p, lease, awaiter, worker, stack, calls⟩ := s
  obtain ⟨slots, owned, mutation⟩ := f
  obtain ⟨w, wanted, stage, sent⟩ := m
  obtain ⟨operation, args⟩ := c
  subst hw hs hf hm
  have hplan : callPlan operation args = .ok (some (k, [(k, 1)])) := by
    unfold callKey at hk
    split at hk
    · rename_i k' bundle hplan
      cases hk
      rw [hplan, callPlan_bundle hplan]
    · cases hk
  let frame : Frame := ⟨slots, owned, some ⟨w, wanted, .guarded ((operation, args) :: rest), sent⟩⟩
  let inner : Frame := ⟨slots, [], none⟩
  have hperform : step ⟨p, lease, awaiter, .running .service, frame :: below, calls⟩ .perform =
      some ⟨p, lease, awaiter, .running (.entering (.perform k) [(k, 1)] [(k, 1)] slots []), frame :: below, calls⟩ := by
    simp only [step, serve, frame, hplan, entering, Sys.slots]
  have hborrow : step ⟨p, lease, awaiter, .running (.entering (.perform k) [(k, 1)] [(k, 1)] slots []), frame :: below,
      calls⟩ .work =
      some ⟨p, lease, awaiter, .running (.entering (.perform k) [(k, 1)] [] slots []), frame :: below, calls⟩ := by
    have hany : (slots k).any (fun slot => 1 ≤ p.remaining (k, slot)) = true := by
      rw [show slots k = some slot from hslot]
      exact decide_eq_true hleft
    simp only [step, work, hany, if_true]
  have hcall : step ⟨p, lease, awaiter, .running (.starting (some (.perform k))), inner :: frame :: below, calls⟩ .work =
      some ⟨pools, lease, awaiter, .running .service, (inner :: frame :: below).map (Frame.record k), calls ++ [some k]⟩ := by
    have hlock' : awaiterLocks ⟨p, lease, awaiter, .running (.starting (some (.perform k))), inner :: frame :: below,
      calls⟩ = false := hlock
    have hpermits : lease.permits (some k) = true := by
      unfold Lease.permits
      rw [Bool.or_eq_true]
      exact .inr (decide_eq_true hprotected)
    have hsee : Sys.slots ⟨p, lease, awaiter, .running (.starting (some (.perform k))), inner :: frame :: below,
      calls⟩ k = some slot := hslot
    unfold step work
    dsimp only
    rw [if_neg (by rw [hlock']; decide)]
    change startCall _ (some k) = _
    unfold startCall
    dsimp only
    rw [if_pos hpermits, hsee, Option.map_some, hstart]
  refine ⟨k, ⟨pools, lease, awaiter, .running .service, (frame :: below).map (Frame.record k), calls ++ [some k]⟩,
    frame.record k, _, below.map (Frame.record k), hk, ?_, rfl, rfl, hlock, rfl, rfl, ?_⟩
  · have henter : step ⟨p, lease, awaiter, .running (.entering (.perform k) [(k, 1)] [] slots []), frame :: below,
        calls⟩ .work =
        some ⟨p, lease, awaiter, .running (.starting (some (.perform k))), inner :: frame :: below, calls⟩ := rfl
    have hleave : step ⟨pools, lease, awaiter, .running .service, (inner :: frame :: below).map (Frame.record k),
        calls ++ [some k]⟩ .leave =
        some ⟨pools, lease, awaiter, .running (.releasing []), (frame :: below).map (Frame.record k),
          calls ++ [some k]⟩ := rfl
    have hresume : step ⟨pools, lease, awaiter, .running (.releasing []), (frame :: below).map (Frame.record k),
        calls ++ [some k]⟩ .work =
        some ⟨pools, lease, awaiter, .running .service, (frame :: below).map (Frame.record k), calls ++ [some k]⟩ := rfl
    rw [run, hperform, Option.bind_some, run, hborrow, Option.bind_some, run, henter, Option.bind_some, run, hcall,
      Option.bind_some, run, hleave, Option.bind_some, run, hresume, Option.bind_some]
    rfl
  · unfold Mutation.record
    rw [if_pos (hkeys k hmem)]
    rfl

/-- All calls that a protected mutation has yet to make. -/
theorem perform_all {f : Frame} {m : Mutation} {below : List Frame} {rest : List (String × Arguments)}
    (h : Custody policies s) (hr : Retention s) (hw : s.worker = .running .service) (hs : s.stack = f :: below)
    (hf : f.mutation = some m) (hm : m.stage = .guarded rest) (hlock : s.awaiterLocks = false) :
    ∃ actions t, run step s actions = some t ∧ t.calls = s.calls ++ rest.map callKey := by
  induction rest generalizing s f m below with
  | nil => exact ⟨[], s, rfl, (List.append_nil _).symm⟩
  | cons c rest ih =>
      obtain ⟨k, t, f', m', below', hk, hrun, hcalls, hw', hlock', hs', hf', hm'⟩ :=
        perform_next h hr hw hs hf hm hlock
      obtain ⟨h', hr'⟩ := run_invariant ⟨h, hr⟩ hrun
      obtain ⟨actions, u, hrest, hall⟩ := ih h' hr' hw' hs' hf' hm' hlock'
      refine ⟨[.perform, .work, .work, .work, .leave, .work] ++ actions, u, ?_, ?_⟩
      · rw [run_append, hrun]
        exact hrest
      · rw [hall, hcalls, List.map_cons, hk, List.append_assoc, List.singleton_append]

/-- The start of a mutation's call goes through as soon as the awaiter is not cancelling. -/
theorem perform_starts {k : PoolKey} (h : Custody policies s) (hr : Retention s)
    (hw : s.worker = .running (.starting (some (.perform k)))) (hlock : s.awaiterLocks = false) :
    ∃ t, step s .work = some t ∧ t.calls = s.calls ++ [some k] := by
  have hpurpose := hr.purposeful
  rw [hw] at hpurpose
  obtain ⟨g, f, below, hs, _, hslots, m, c, rest, hf, hm, hc⟩ := hpurpose
  have hmem : f ∈ s.stack := hs ▸ List.mem_cons_of_mem g List.mem_cons_self
  have hsheltered := hr.sheltered f hmem m hf
  have hk : k ∈ (c :: rest).filterMap callKey := List.mem_filterMap.mpr ⟨c, List.mem_cons_self, hc⟩
  obtain ⟨slot, hslot, hleft⟩ := hsheltered.left hm hk
  have hpermits : s.lease.permits (some k) = true := by
    unfold Lease.permits
    rw [Bool.or_eq_true]
    refine .inr (decide_eq_true ?_)
    rw [h.shielded]
    exact mem_guards hmem hf hm ((hsheltered.covered _ hm).2.1 k hk)
  have hsee : s.slots k = some slot := by
    unfold Sys.slots
    rw [hs]
    change g.slots k = some slot
    rw [hslots]
    exact hslot
  obtain ⟨pools, hstart, _⟩ := Pools.start_left h.sound (show s.pools.remaining (k, slot) ≠ 0 by omega)
  refine ⟨{ s with
    pools := pools
    stack := s.stack.map (Frame.record k)
    worker := .running .service
    calls := s.calls ++ [some k] }, ?_, rfl⟩
  unfold step work
  rw [hw]
  dsimp only
  rw [if_neg (by rw [hlock]; decide)]
  change s.startCall (some k) = _
  unfold startCall
  dsimp only
  rw [if_pos hpermits, hsee, Option.map_some, hstart]

/-- A dispatch neither leaks a reservation nor strands the relock of a mutation. -/
theorem lease_kept {clock : ℚ} {requests : List QuotaRequest}
    (h : run step (init policies clock requests : Sys β) actions = some s) :
    -- After both sides ended, every reservation was started or returned once.
    (s.awaiter = .ended → (s.worker = .absent ∨ s.worker = .queued ∨ s.worker = .ended) →
      ∀ x a, s.pools.accounts x = some a →
        x.2 ∉ (s.pools.limiters x.1).pending ∧ a.granted = a.started + a.returned.sum ∧ a.returned.length ≤ 1) ∧
    -- After the lease was cancelled, only calls on protected pools start.
    (s.lease.cancelled = true → ∀ actions t a u, run step s actions = some t → step t a = some u →
      u.calls = t.calls ∨ ∃ k ∈ t.lease.protectedKeys, u.calls = t.calls ++ [some k]) ∧
    -- The calls of a mutation are its unlock, its write and its relock.
    (∀ f ∈ s.stack, ∀ m, f.mutation = some m → m.write.calls.map callKey =
      if m.write.jit then [some unlockPool, some m.write.pool, some unlockPool] else [some m.write.pool]) ∧
    -- A mutation that is not protected yet has called none of its pools.
    (∀ f ∈ s.stack, ∀ m, f.mutation = some m → m.stage = .reserved → m.sent = []) ∧
    -- One that is protected can make all calls it has yet to make, needs no pool for them, and none is refused.
    (∀ f below m rest, s.stack = f :: below → f.mutation = some m → m.stage = .guarded rest →
      s.worker = .running .service → s.awaiterLocks = false →
      ∃ actions t, run step s actions = some t ∧ t.calls = s.calls ++ rest.map callKey) ∧
    (∀ k plan todo slots owned k' weight, s.worker ≠ .running (.lacking (.perform k) plan todo slots owned k' weight)) ∧
    (∀ k, s.worker = .running (.starting (some (.perform k))) → s.awaiterLocks = false →
      ∃ t, step s .work = some t ∧ t.calls = s.calls ++ [some k]) := by
  obtain ⟨hcustody, hretention⟩ : Custody policies s ∧ Retention s :=
    run_invariant ⟨custody_init clock requests, retention_init clock requests⟩ h
  refine ⟨fun hawaiter hworker x a ha => ended_balance hcustody hawaiter hworker ha, ?_, ?_, ?_, ?_, ?_, ?_⟩
  · intro hcancelled actions t a u hrun hstep
    exact move_calls (step_move hstep) (run_cancelled hcustody hrun hcancelled)
  · intro f hf m hm
    rcases m.write.plan_cases (hretention.sheltered f hf m hm).planned with ⟨hjit, _, hcalls⟩ | ⟨hjit, _, hcalls⟩ <;>
      rw [hjit, hcalls] <;> rfl
  · intro f hf m hm hstage
    exact (hretention.sheltered f hf m hm).unsent hstage
  · intro f below m rest hs hf hm hw hlock
    exact perform_all hcustody hretention hw hs hf hm hlock
  · intro k plan todo slots owned k' weight hw
    have hpurpose := hretention.purposeful
    rw [hw] at hpurpose
    exact hpurpose
  · intro k hw hlock
    exact perform_starts hcustody hretention hw hlock

theorem sample_margin : (0 : ℚ) ≤ 1 / 10 := by norm_num

theorem sample_wait : (0 : ℚ) ≤ 5 := by norm_num

def samplePolicies (_ : PoolKey) : RateLimitPolicy :=
  ⟨"Moomoo", "", 10, 30, 1 / 10, 5, 0, by norm_num, by norm_num, sample_margin, sample_wait, by norm_num⟩

def sampleWrite : Write := ⟨.placeOrder, 7, true⟩

/-- A mutation is protected, then its awaiter is cancelled and another caller takes the rest of the pool. -/
def sampleActions : List Action :=
  [.acquire none, .acquire none, .await, .start, .mutate sampleWrite, .work, .work, .work, .protectMutation, .cancel,
    .await, .await, .await, .rival unlockPool (.reserve 8 none)] ++
  ((List.replicate 3 [Action.perform, .work, .work, .work, .leave, .work]).flatten ++
    [.unprotect, .leave, .work, .finish, .work, .work, .work])

theorem sample_run : (run step (init samplePolicies 0 sampleWrite.requests : Sys ListBucket) sampleActions).any
    (fun s => s.calls = [some unlockPool, some sampleWrite.pool, some unlockPool] &&
      (match s.awaiter, s.worker with | .ended, .ended => true | _, _ => false)) = true := by decide +kernel

theorem sample_lease_kept : ∃ s : Sys ListBucket,
    run step (init samplePolicies 0 sampleWrite.requests) sampleActions = some s ∧
    s.calls = [some unlockPool, some sampleWrite.pool, some unlockPool] ∧
    ∀ x a, s.pools.accounts x = some a →
      x.2 ∉ (s.pools.limiters x.1).pending ∧ a.granted = a.started + a.returned.sum ∧ a.returned.length ≤ 1 := by
  obtain ⟨s, hrun, hs⟩ := (Option.any_eq_true _ _).mp sample_run
  rw [Bool.and_eq_true, decide_eq_true_eq] at hs
  obtain ⟨hcalls, hover⟩ := hs
  have hended : s.awaiter = .ended ∧ s.worker = .ended := by
    split at hover
    · rename_i hawaiter hworker
      exact ⟨hawaiter, hworker⟩
    · cases hover
  exact ⟨s, hrun, hcalls, (lease_kept hrun).1 hended.1 (.inr (.inr hended.2))⟩

end MoomooMcp.BrokerDispatch.Sys
