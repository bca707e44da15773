import MoomooMcp.Quota

namespace MoomooMcp.RateLimit

open Machine RollingWindow InMemoryBucket

variable {β : Type} [InMemoryBucket β]

namespace Sys

variable {s t : Sys β}

theorem advance_change {ticket : ℕ} {a : Acquire} (h : s.advance ticket a = some t) :
    t.clock = s.clock ∧ Change s.clock s.limiter s.starts t.limiter t.starts := by
  unfold advance at h
  cases hphase : a.phase with
  | entering => rw [hphase] at h; cases h; exact ⟨rfl, .queue _⟩
  | checking => rw [hphase] at h; cases h; exact ⟨rfl, .queue s.limiter.waiters⟩
  | expired => rw [hphase] at h; cases h; exact ⟨rfl, .prune⟩
  | trying =>
      rw [hphase] at h
      have hchange : Change s.clock s.limiter s.starts (s.limiter.tryReserve a.weight (some ticket) s.clock).2 s.starts :=
        .reserve a.weight (some ticket)
      dsimp only at h
      split at h <;> rename_i heq <;> cases h <;> rw [heq] at hchange <;> exact ⟨rfl, hchange⟩
  | refused retryAfter =>
      rw [hphase] at h
      dsimp only at h
      split at h <;> cases h <;> exact ⟨rfl, .queue s.limiter.waiters⟩
  | sleeping seconds => rw [hphase] at h; cases h; exact ⟨rfl, .queue s.limiter.waiters⟩
  | leaving outcome => rw [hphase] at h; cases h; exact ⟨rfl, .queue _⟩
  | left outcome => rw [hphase] at h; cases h

/-- Every step leaves the clock and changes the limiter by one operation, or advances the clock only. -/
theorem step_change {a : Action} (h : s.step a = some t) :
    (t.clock = s.clock ∧ Change s.clock s.limiter s.starts t.limiter t.starts) ∨
    (s.clock ≤ t.clock ∧ t.limiter = s.limiter ∧ t.starts = s.starts) := by
  cases a with
  | tick now =>
      obtain ⟨hnow, rfl⟩ : s.clock ≤ now ∧ { s with clock := now } = t := by simpa [step] using h
      exact .inr ⟨hnow, rfl, rfl⟩
  | reserve weight =>
      cases h
      refine .inl ⟨rfl, ?_⟩
      dsimp only
      rw [Limiter.reserve_limiter]
      exact .reserve weight none
  | acquire weight deadline =>
      cases h
      refine .inl ⟨?_, ?_⟩ <;> unfold acquire <;> split
      · rfl
      · rfl
      · dsimp only
        rw [Limiter.reserve_limiter]
        exact .reserve weight none
      · exact .queue s.limiter.waiters
  | advance ticket =>
      obtain ⟨a, _, hadvance⟩ := Option.bind_eq_some_iff.mp h
      exact .inl (advance_change hadvance)
  | cancel ticket =>
      unfold step at h
      dsimp only at h
      split at h
      · split at h
        · cases h
          exact .inl ⟨rfl, .queue s.limiter.waiters⟩
        · cases h
      · cases h
  | start slot =>
      unfold step at h
      dsimp only at h
      split at h
      · split at h <;> rename_i heq <;> cases h
        · exact .inl ⟨rfl, .started slot _ heq⟩
        · exact .inl ⟨rfl, .rejected slot _ _ heq⟩
      · cases h
  | release slot =>
      unfold step at h
      dsimp only at h
      split at h
      · cases h
        exact .inl ⟨rfl, .release slot⟩
      · cases h

variable [LawfulBucket β] {policy : RateLimitPolicy} {clock : ℚ} {actions : List Action}

theorem step_kept {a : Action} (hkept : Kept policy s.starts s.clock s.limiter) (h : s.step a = some t) :
    Kept policy t.starts t.clock t.limiter := by
  rcases step_change h with ⟨hclock, hchange⟩ | ⟨hclock, hlimiter, hstarts⟩
  · rw [hclock]
    exact hchange.kept hkept
  · rw [hlimiter, hstarts]
    exact hkept.tick hclock

theorem run_kept (hkept : Kept policy s.starts s.clock s.limiter) (h : run step s actions = some t) :
    Kept policy t.starts t.clock t.limiter :=
  (free_of_run h).invariant hkept
    (fun _ _ _ hkept hstep _ => step_kept hkept hstep)

/-- A reservation that was released or used up stays so. -/
theorem run_spent {slot : ℕ} (hkept : Kept policy s.starts s.clock s.limiter) (hslot : slot < s.limiter.issued)
    (hspent : s.limiter.remaining slot = 0) (h : run step s actions = some t) :
    slot < t.limiter.issued ∧ slot ∉ t.limiter.pending := by
  have hpath := free_of_run h
  have hrun : Kept policy t.starts t.clock t.limiter ∧ slot < t.limiter.issued ∧ slot ∉ t.limiter.pending := by
    refine hpath.invariant
      (P := fun u => Kept policy u.starts u.clock u.limiter ∧ slot < u.limiter.issued ∧ slot ∉ u.limiter.pending)
      ⟨hkept, hslot, fun hpending => hkept.mem_iff.mp hpending hspent⟩ ?_
    rintro u a v ⟨hkept, hslot, hspent⟩ hstep _
    refine ⟨step_kept hkept hstep, ?_⟩
    rcases step_change hstep with ⟨_, hchange⟩ | ⟨_, hlimiter, _⟩
    · obtain ⟨hle, hissued⟩ := hchange.remaining_le hkept hslot
      refine ⟨hissued, fun hpending => ?_⟩
      have hpositive := (hchange.kept hkept).positive slot hpending
      have hzero := hkept.spent slot hspent
      omega
    · rw [hlimiter]
      exact ⟨hslot, hspent⟩
  exact hrun.2

/-- Provider quota is neither exceeded nor lost, in every run. -/
theorem quota_kept (h : run step (init policy clock : Sys β) actions = some s) :
    Spread policy.calls.toNat policy.windowSeconds s.starts ∧
    (policy.minIntervalSeconds ≠ 0 → Spread 1 policy.minIntervalSeconds s.starts) ∧
    (∀ now, s.clock ≤ now →
      ((within policy.windowSeconds now s.starts).length : ℤ) + s.limiter.pendingWeight ≤ policy.calls) ∧
    (∀ slot ∈ s.limiter.pending, ∃ l, s.limiter.start slot s.clock = (.ok (), l) ∧
      l.remaining slot = s.limiter.remaining slot - 1) ∧
    (∀ slot < s.limiter.issued, s.limiter.remaining slot = 0 → ∀ actions t, run step s actions = some t →
      t.limiter.start slot t.clock =
        (.error (.runtime "Provider request reservation already released or used"), t.limiter) ∧
      t.limiter.release slot = t.limiter) ∧
    (∀ slot ∈ s.limiter.pending,
      (s.limiter.release slot).remaining slot = 0 ∧
      (s.limiter.release slot).pendingWeight = s.limiter.pendingWeight - s.limiter.remaining slot ∧
      ∀ weight ticket, 1 ≤ weight → weight ≤ s.limiter.remaining slot →
        (s.limiter.waiters = [] ∨ s.limiter.waiters.head? = ticket) →
        ∃ l, (s.limiter.release slot).tryReserve weight ticket s.clock = (.reserved s.limiter.issued, l)) := by
  have hkept : Kept policy s.starts s.clock s.limiter := run_kept (Kept.new policy clock) h
  refine ⟨spread_seconds hkept.bucket.spread, hkept.spaced, fun now hnow => hkept.started_within hnow, ?_, ?_, ?_⟩
  · intro slot hslot
    obtain ⟨l, hstart, _, hremaining, _⟩ := hkept.start hslot
    exact ⟨l, hstart, by rw [hremaining, Function.update_self]⟩
  · intro slot hslot hspent later t hrun
    have hnot := (run_spent hkept hslot hspent hrun).2
    exact ⟨Limiter.start_not_pending hnot, (run_kept hkept hrun).release_spent hnot⟩
  · intro slot hslot
    refine ⟨Function.update_self _ _ _, Limiter.pendingWeight_release hslot, ?_⟩
    intro weight ticket hpositive hleft hfirst
    exact ⟨_, hkept.reserve_released hslot hpositive hleft hfirst⟩

end Sys

/-- A bucket that is a list of timestamps. -/
structure ListBucket where
  of : Rate
  entries : List ℤ

instance : InMemoryBucket ListBucket where
  new r := ⟨r, []⟩
  rate := ListBucket.of
  items := ListBucket.entries
  leak now b := ⟨b.of, within b.of.interval now b.entries⟩
  put now b :=
    if ((within b.of.interval now b.entries).length : ℤ) < b.of.limit then some ⟨b.of, b.entries ++ [now]⟩ else none
  count b := b.entries.length
  peek index b := if index < 0 then none else b.entries.reverse[index.toNat]?

instance : LawfulBucket ListBucket where
  rate_new _ := rfl
  items_new _ := rfl
  rate_leak _ _ := rfl
  items_leak _ _ _ := rfl
  put_isSome now b _ := by simp [put, rate, items]
  rate_put h := by
    obtain ⟨_, hb⟩ := Option.ite_none_right_eq_some.mp h
    rw [← Option.some.inj hb]
    rfl
  items_put h := by
    obtain ⟨_, hb⟩ := Option.ite_none_right_eq_some.mp h
    rw [← Option.some.inj hb]
    rfl
  count_eq _ := rfl
  peek_eq n b := by simp [peek, items]

namespace Sys

/-- Two paced calls in any 1.1 seconds. -/
def samplePolicy : RateLimitPolicy :=
  ⟨"Moomoo", "modify_order", 2, 1, 1 / 10, 5, 1 / 25, by norm_num, by norm_num, by norm_num, by norm_num, by norm_num⟩

/-- One call is started, a second waits for its distance, and a third is released again. -/
def sampleActions : List Action :=
  [.reserve 1, .start 0, .acquire 1 none, .advance 0, .advance 0, .advance 0, .advance 0, .tick (1 / 20), .advance 0,
    .advance 0, .advance 0, .advance 0, .start 1, .tick 2, .reserve 1, .release 2]

theorem sample_run : (run step (init samplePolicy 0 : Sys ListBucket) sampleActions).any
    (fun s => s.starts = [0, 1 / 20] && s.limiter.pending = ∅) = true := by decide +kernel

theorem sample_quota_kept : ∃ s : Sys ListBucket, run step (init samplePolicy 0) sampleActions = some s ∧
    s.starts = [0, 1 / 20] ∧ Spread 2 samplePolicy.windowSeconds s.starts ∧
    (∀ now, s.clock ≤ now →
      ((within samplePolicy.windowSeconds now s.starts).length : ℤ) + s.limiter.pendingWeight ≤ 2) := by
  obtain ⟨s, hrun, hs⟩ := (Option.any_eq_true _ _).mp sample_run
  rw [Bool.and_eq_true, decide_eq_true_eq] at hs
  obtain ⟨hspread, _, hwithin, _⟩ := quota_kept hrun
  exact ⟨s, hrun, hs.1, hspread, hwithin⟩

end Sys

end MoomooMcp.RateLimit
