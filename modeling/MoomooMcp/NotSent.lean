import MoomooMcp.Blocking

namespace MoomooMcp.Executor

open ExecutionStore

/-- The call a thread is in, or that it just returned from, has started its SDK write. -/
def Phase.sent : Phase → Bool
  | .calling _ _ _ | .finishing _ _ _ (some _) _ | .done _ (some _) _ => true
  | _ => false

variable {sh sh' : Shared} {ph ph' : Phase} {i : Input} {row : Row}

theorem sent_of_recovering (h : ph.recovering = true) : ph.sent = false := by
  cases ph <;> simp_all [Phase.recovering, Phase.sent]

/-- A step that commits nothing starts no SDK write. -/
theorem Quiet.sent (h : Quiet sh i ph ph') (hrest : ph.resting = false) : ph'.sent = ph.sent := by
  cases h with
  | present hr | reject hr | checking hr | notDispatched hr | checkReturned hr =>
      rw [hr] at hrest
      cases hrest
  | returned hph => rcases hph with rfl | rfl | rfl <;> rfl
  | refused hph => rcases hph with rfl | rfl | ⟨p, rfl⟩ <;> rfl
  | observed => exact sent_of_recovering (observe_recovering _ _ _ _)
  | blockFailed => exact sent_of_recovering (evidenceFailure_recovering _ _ _ _ _ _)
  | accounted => exact sent_of_recovering (account_recovering _ _ _ _ _)
  | queued | admitting | entered | prepared | startFailed | answered | unrecorded => rfl

theorem Quiet.unsent_of_resting (h : Quiet sh i ph ph') (hrest : ph.resting = true) : ph'.sent = false := by
  cases h with
  | returned hph => rcases hph with rfl | rfl | rfl <;> rfl
  | refused hph => rcases hph with rfl | rfl | ⟨p, rfl⟩ <;> rfl
  | present | reject | checking | notDispatched | checkReturned | queued | admitting | entered | prepared
  | unrecorded => rfl
  | startFailed | answered | observed | blockFailed | accounted => cases hrest

/-- A call sends at the step that starts its SDK write, and has then sent for good. -/
theorem Move.sent (h : Move sh i ph sh' ph') :
    (sh'.starts ≠ sh.starts ↔ ph.sent = false ∧ ph'.sent = true) ∧
      (ph.sent = true → ph.resting = false → ph'.sent = true) := by
  cases h with
  | quiet hquiet =>
      cases hrest : ph.resting with
      | false =>
          have hsame := hquiet.sent hrest
          refine ⟨⟨fun hne => absurd rfl hne, fun ⟨hold, hnew⟩ => ?_⟩, fun hsent _ => hsame.trans hsent⟩
          rw [hsame, hold] at hnew
          cases hnew
      | true =>
          have hunsent := hquiet.unsent_of_resting hrest
          refine ⟨⟨fun hne => absurd rfl hne, fun ⟨_, hnew⟩ => ?_⟩, fun _ hn => by cases hn⟩
          rw [hunsent] at hnew
          cases hnew
  | started => exact ⟨⟨fun _ => ⟨rfl, rfl⟩, fun _ => by simp⟩, fun hsent => by cases hsent⟩
  | admitted _ _ _ _ hph =>
      rcases hph with ⟨rfl, _⟩ | ⟨⟨e, rfl⟩, _⟩ <;> simp [Phase.sent]
  | marked _ _ _ hph =>
      rcases hph with ⟨rfl, _⟩ | ⟨⟨e, rfl⟩, _⟩ <;> simp [Phase.sent]
  | @finished _ _ _ sdk => cases sdk <;> simp [Phase.sent]
  | refused | recorded => simp [Phase.sent]
  | @blocked n started found _ _ _ _ _ _ hph =>
      have hunsent : ph'.sent = false := by
        rcases hph with rfl | ⟨e, rfl⟩
        · rfl
        · exact sent_of_recovering (evidenceFailure_recovering _ _ _ _ _ _)
      refine ⟨⟨fun hne => absurd rfl hne, fun ⟨_, hnew⟩ => ?_⟩, fun hn => by cases hn⟩
      rw [hunsent] at hnew
      cases hnew

/-- A call that admitted an operation and ends with an exception never sent it. -/
theorem Move.failed (h : Move sh i ph sh' ph') (hok : ThreadOk sh ph)
    (hown : ph.own = some row) {c : Request} {sdk : Option SdkAnswer} {e : Exc}
    (hph : ph' = .done c sdk (.error e)) : row.operationId ∉ sh'.starts := by
  cases h with
  | quiet hquiet =>
      cases hquiet with
      | present hrest | reject hrest | checking hrest | notDispatched hrest | checkReturned hrest =>
          rw [own_of_resting hrest] at hown
          cases hown
      | returned hph' => rcases hph' with rfl | rfl | rfl <;> cases hown
      | entered | prepared | refused | startFailed | answered => cases hph
      | queued | admitting | observed | blockFailed | accounted | unrecorded => cases hown
  | marked _ _ _ hph' => rcases hph' with ⟨rfl, _⟩ | ⟨⟨_, rfl⟩, _⟩ <;> cases hph
  | started | finished => cases hph
  | refused => cases hown; exact hok.2.1
  | admitted | blocked | recorded => cases hown

end MoomooMcp.Executor

namespace MoomooMcp.System

open ExecutionStore Executor Machine

variable {env : Environment} {s s' : Sys} {op : OperationId}

theorem moved_of_step {t : Tid} {i : Input} {p p' : Process} (h : step s (.thread t i) = some s')
    (hp : s.process = some p) (hp' : s'.process = some p') : Moved s p t i s' p' := by
  have htransition := step_transition h
  cases htransition with
  | @thread q _ _ sh ph _ _ hq _ hmove =>
      rw [hp] at hq
      cases hq
      cases hp'
      refine ⟨hp, ?_, fun u hu => Function.update_of_ne hu _ _, rfl⟩
      dsimp only
      rw [Function.update_self]
      exact hmove

/-- The end of an unresolved SDK write leaves a review requirement or a late failure. -/
theorem ends_flagged (hs : Inv s) {a : Action} (h : step s a = some s') (hends : EndsUnresolved op s a) :
    s'.journal.pending op ∨ ∃ p' f, s'.process = some p' ∧ f ∈ p'.late ∧ f.result.operationId = op := by
  obtain ⟨p, t, c, row, q, sdk, o, fault, fault', hp, rfl, hph, rfl, ho⟩ := hends
  have hthread := (hs.process p hp).threads t
  rw [hph] at hthread
  obtain ⟨_, _, _, _, hanswered⟩ := hthread
  have hreason : o.reason ≠ none := by
    rcases ho with ho | ho
    · exact hanswered.reviewed ho
    · simp [ho]
  have htransition := step_transition h
  cases htransition with
  | @thread p' _ _ sh ph _ _ hp' _ hmove =>
      rw [hp] at hp'
      cases hp'
      rw [hph] at hmove
      cases hmove with
      | quiet hquiet =>
          cases hquiet with
          | returned hph => rcases hph with hph | hph | hph <;> cases hph
          | refused hph => rcases hph with hph | hph | ⟨_, hph⟩ <;> cases hph
      | finished _ hresult hstored =>
          rcases hstored with ⟨hc, _⟩ | ⟨_, rfl⟩
          · exact .inl (hc.pending.mpr (.inl ⟨rfl, hreason⟩))
          · exact .inr ⟨_, _, rfl, List.mem_cons_self, hresult.operationId⟩

/-- NOT_SENT is never wrong. An operation whose row is refused was never sent; a
call that ends with an exception, a refusal among them, did not start its SDK
write; a call that did start it is told ACKNOWLEDGED exactly when the SDK returned
RET_OK and UNKNOWN_OUTCOME otherwise, never NOT_SENT; and an unknown outcome, or an
acknowledgement with an unreadable receipt, leaves a review or a late failure. -/
theorem not_sent_never_wrong (h : Reachable env free s) :
    (∀ op r, s.journal.row op = some r → r.state = .refused → op ∉ s.starts) ∧
    (∀ p t c sdk e, s.process = some p → p.threads t = .done c sdk (.error e) → sdk = none) ∧
    (∀ p t c a answer, s.process = some p → p.threads t = .done c (some a) answer →
      ∃ result, answer = .ok result ∧ result.disposition ≠ some .notSent ∧
        result.state = if a.retOk then .acknowledged else .unknownOutcome) ∧
    (∀ t i s' p p', step s (.thread t i) = some s' → s.process = some p → s'.process = some p' →
      (s'.starts ≠ s.starts ↔ (p.threads t).sent = false ∧ (p'.threads t).sent = true) ∧
      ((p.threads t).sent = true → (p.threads t).resting = false → (p'.threads t).sent = true) ∧
      (∀ row c sdk e, (p.threads t).own = some row → p'.threads t = .done c sdk (.error e) →
        row.operationId ∉ s'.starts)) ∧
    (∀ a s' op, step s a = some s' → EndsUnresolved op s a →
      s'.journal.pending op ∨ ∃ p' f, s'.process = some p' ∧ f ∈ p'.late ∧ f.result.operationId = op) ∧
    (∀ op r, s.journal.row op = some r → r.state = .unknownOutcome → r.recoveryDisposition = none →
      s.journal.pending op) := by
  have hs := reachable_inv h
  refine ⟨?_, ?_, ?_, ?_, fun a s' op hstep hends => ends_flagged hs hstep hends, hs.durable.flagged⟩
  · intro op r hr hstate hop
    obtain ⟨r', hr', _, _, hne⟩ := hs.durable.sent op hop
    rw [hr] at hr'
    cases hr'
    exact hne hstate
  · intro p t c sdk e hp hph
    have htold := (hs.process p hp).threads t
    rw [hph] at htold
    exact Told.error htold e rfl
  · intro p t c a answer hp hph
    have htold := (hs.process p hp).threads t
    rw [hph] at htold
    obtain ⟨result, hanswer, hstate, hdisposition⟩ := Told.ok htold a rfl
    exact ⟨result, hanswer, hdisposition, hstate⟩
  · intro t i s' p p' hstep hp hp'
    have hmoved := moved_of_step hstep hp hp'
    obtain ⟨hsends, hstays⟩ := hmoved.move.sent
    exact ⟨hsends, hstays, fun row c sdk e hown hph =>
      hmoved.move.failed ((hs.process p hp).threads t) hown hph⟩

/-- A REAL placement the gateway refuses, after which the relock fails too. -/
def refusedRun : List Action :=
  placementStart ++
    [.thread 0 (.answer (.refused "insufficient funds") (some "no reply")), .thread 0 (.finish .none .none)]

theorem refused_placement_unknown : ∃ s p c answer, run step (initial .real) refusedRun = some s ∧
    s.process = some p ∧ p.threads 0 = .done c (some (.refused "insufficient funds")) answer ∧
    ∃ result, answer = .ok result ∧ result.disposition ≠ some .notSent ∧ result.state = .unknownOutcome := by
  refine ⟨_, _, _, _, rfl, rfl, rfl, ?_⟩
  have hnever := (@not_sent_never_wrong .real _ (reachable_of_run refusedRun rfl)).2.2.1
  exact hnever _ 0 _ _ _ rfl rfl

end MoomooMcp.System
