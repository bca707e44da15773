import MoomooMcp.Ledger
import MoomooMcp.StateMachine

namespace MoomooMcp.System

open ExecutionStore Executor Machine Ledger

/-- Who asked for what, which no commit rewrites. -/
structure Identity where
  admissionEpoch : Epoch
  account : Account
  kind : Kind
  canonical : Canonical
  request : Params
  orderTag : Option Tag

def identity (r : Row) : Identity := ⟨r.admissionEpoch, r.account, r.kind, r.canonical, r.request, r.orderTag⟩

/-- A row in dispatch is sent once its SDK write has started. -/
def stage (starts : List OperationId) (r : Row) : Stage :=
  match r.state with
  | .admitted => .booked
  | .dispatching => if r.operationId ∈ starts then .sent else .armed
  | .refused => .withdrawn
  | .acknowledged => .acknowledged
  | .unknownOutcome => .doubtful
  | .reconciled | .terminalAccounted => .settled

def entry (starts : List OperationId) (r : Row) : Entry Identity := ⟨identity r, stage starts r⟩

/-- What a deployment amounts to: the operations on record and the SDK writes started. -/
def view (s : Sys) : Book OperationId Identity := ⟨fun k => (s.journal.row k).map (entry s.starts), s.starts⟩

/-- A thread that waits for an answer, or has one, has started its SDK write. -/
def Sending (starts : List OperationId) : Phase → Prop
  | .calling _ row _ | .finishing _ row _ (some _) _ => row.operationId ∈ starts
  | _ => True

variable {env : Environment} {ok : Sys → Action → Sys → Prop} {s s' : Sys} {a : Action} {k : OperationId} {r r' : Row}
  {starts starts' : List OperationId} {ph ph' : Phase}

theorem Sending.mono (h : Sending starts ph) (hsub : ∀ op ∈ starts, op ∈ starts') : Sending starts' ph := by
  cases ph with
  | calling => exact hsub _ h
  | finishing c row p sdk =>
      cases sdk with
      | none => trivial
      | some => exact hsub _ h
  | _ => trivial

theorem sending_outside (h : ph.inLock = false) : Sending starts ph := by
  cases ph with
  | calling | finishing => cases h
  | _ => trivial

theorem sending_recovering (h : ph.recovering = true) : Sending starts ph := by
  cases ph with
  | calling | finishing => cases h
  | _ => trivial

theorem starts_grow {sh sh' : Shared} {i : Input} (h : Move sh i ph sh' ph') : ∀ op ∈ sh.starts, op ∈ sh'.starts := by
  rcases h.starts with hsame | ⟨_, _, _, _, _, hnew⟩
  · rw [hsame]
    exact fun _ => id
  · rw [hnew]
    exact fun _ => List.mem_append_left _

theorem sending_move {sh sh' : Shared} {i : Input} (h : Move sh i ph sh' ph') (hs : Sending sh.starts ph) :
    Sending sh'.starts ph' := by
  cases h with
  | quiet hquiet =>
      cases hquiet with
      | answered => exact hs
      | returned hph => trivial
      | observed => exact sending_recovering (observe_recovering _ _ _ _)
      | blockFailed => exact sending_recovering (evidenceFailure_recovering _ _ _ _ _ _)
      | accounted => exact sending_recovering (account_recovering _ _ _ _ _)
      | _ => trivial
  | started => exact List.mem_append_right _ (List.mem_singleton_self _)
  | admitted _ _ _ _ hph => rcases hph with ⟨rfl, _⟩ | ⟨⟨_, rfl⟩, _⟩ <;> trivial
  | marked _ _ _ hph => rcases hph with ⟨rfl, _⟩ | ⟨⟨_, rfl⟩, _⟩ <;> trivial
  | blocked _ _ hph =>
      rcases hph with rfl | ⟨_, rfl⟩
      · trivial
      · exact sending_recovering (evidenceFailure_recovering _ _ _ _ _ _)
  | finished | refused | recorded => trivial

theorem reachable_sending {p : Process} (h : Reachable env ok s) (hp : s.process = some p) (t : Tid) :
    Sending s.starts (p.threads t) := by
  refine lock_rule (Q := fun s _ ph => Sending s.starts ph) (fun _ _ _ => sending_outside) ?_ ?_ h hp t
  · intro s p s' p' t i ph hmoved _ _ hq
    exact hq.mono (starts_grow hmoved.move)
  · intro s p s' p' t i _ hmoved _ hq
    exact sending_move hmoved.move hq

theorem identity_descends (h : Row.Descends r r') : identity r' = identity r := by
  simp only [identity, h.admissionEpoch, h.account, h.kind, h.canonical, h.request, h.orderTag]

/-- An acknowledgement is recorded for a write that was sent. -/
theorem sent_of_acknowledged (hreach : Reachable env ok s) (hr : s.journal.row k = some r) (h : RowStep s s' a r r')
    (hfrom : r.state = .dispatching) (hto : r'.state = .acknowledged) : r.operationId ∈ s.starts := by
  have hs := reachable_inv hreach
  have hk := reachable_kept hreach
  cases h with
  | kept | observed | checked => cases hfrom.symm.trans hto
  | marked | refused => cases hto
  | @concluded p t c row q sdk o fault fault' hp hph =>
      have hthread := (hs.process p hp).threads t
      rw [hph] at hthread
      obtain ⟨_, _, _, _, hanswered⟩ := hthread
      have hstate : (Row.concluded row.operationId o (row.markDispatch q.merged)).state = o.state := concluded_state rfl
      rw [hstate] at hto
      rcases hanswered.cases with ⟨hunknown, _⟩ | ⟨_, _, _, _, answer, hsdk, _⟩
      · cases hunknown.symm.trans hto
      · have hsending := reachable_sending hreach hp t
        rw [hph, hsdk] at hsending
        exact hsending
  | @resolved p t n started conclusion completed fault fault' resolution target hp hph =>
      have hthread := (hs.process p hp).threads t
      rw [hph] at hthread
      rcases current_state hk.reviewed hthread.1 with hstate | hstate | ⟨hstate, _⟩ <;> cases hfrom.symm.trans hstate
  | recovered _ hstate =>
      simp only [Row.recoverDispatch, hstate] at hto
      cases hto

theorem hop_of_next {s s' : Stage} (h : s.Next s' ∨ s' = s) (i : Identity) : Hop (some ⟨i, s⟩) (some ⟨i, s'⟩) := by
  rcases h with h | rfl
  · exact .next h
  · exact .refl _

/-- A row goes from stage to stage as an operation of the ledger does. -/
theorem stage_step (hreach : Reachable env ok s) (hr : s.journal.row k = some r) (h : RowStep s s' a r r')
    (hkey : r'.operationId = r.operationId) : (stage s.starts r).Next (stage s.starts r') ∨ stage s.starts r' = stage s.starts r := by
  have hs := reachable_inv hreach
  have hunsent : r.state = .admitted → r.operationId ∉ s.starts := by
    intro hstate hsent
    obtain ⟨r₀, hr₀, _, hne, _⟩ := hs.durable.sent _ hsent
    rw [row_key hr, hr] at hr₀
    cases hr₀
    exact hne hstate
  cases h.follows hs (reachable_kept hreach) hr with
  | kept hstate =>
      right
      simp only [stage, hstate, hkey]
  | dispatched hfrom hto =>
      left
      simp only [stage, hfrom, hto, hkey, if_neg (hunsent hfrom)]
      exact .arm
  | refused hfrom hto =>
      left
      simp only [stage, hfrom, hto]
      exact .withdraw
  | concluded hfrom hto =>
      left
      rcases hto with hto | hto
      · simp only [stage, hfrom, hto, if_pos (sent_of_acknowledged hreach hr h hfrom hto)]
        exact .acknowledge
      · simp only [stage, hfrom, hto]
        split_ifs
        · exact .lose (.inr rfl)
        · exact .lose (.inl rfl)
  | absent hfrom hto =>
      rcases hfrom with hfrom | hfrom
      · left
        simp only [stage, hfrom, hto]
        exact .presume
      · right
        simp only [stage, hfrom, hto]
  | accounted hfrom hto =>
      left
      have hsettled : stage s.starts r' = .settled := by
        rcases hto with hto | hto <;> simp only [stage, hto]
      rw [hsettled]
      rcases hfrom with hfrom | hfrom | ⟨hfrom, _⟩ <;> simp only [stage, hfrom]
      · exact .settle (.inl rfl)
      · exact .settle (.inr (.inl rfl))
      · exact .settle (.inr (.inr rfl))

theorem stage_armed (h : r.state = .dispatching) (hunsent : r.operationId ∉ starts) : stage starts r = .armed := by
  simp only [stage, h, if_neg hunsent]

theorem stage_sent (h : r.state = .dispatching) (hsent : r.operationId ∈ starts) : stage starts r = .sent := by
  simp only [stage, h, if_pos hsent]

theorem stage_append {op : OperationId} (h : r.operationId ≠ op) : stage (starts ++ [op]) r = stage starts r := by
  simp only [stage, List.mem_append, List.mem_singleton, h, or_false]

/-- A step that starts no SDK write moves the operations on, each by itself. -/
theorem quiet_step (hreach : Reachable env ok s) (h : Transition s a s') (hsame : s'.starts = s.starts) :
    Step (view s) (view s') := by
  refine .quiet (fun k => ?_) hsame
  have hs := reachable_inv hreach
  simp only [view, hsame]
  cases hr' : s'.journal.row k with
  | none =>
      cases hr : s.journal.row k with
      | none => exact .refl _
      | some r =>
          obtain ⟨r', hkept, _⟩ := extends_step h k r hr
          cases hr'.symm.trans hkept
  | some r' =>
      rcases row_step hs h hr' with ⟨r, hr, hrow⟩ | ⟨hnone, _, c, account, uuid, rfl⟩
      · obtain ⟨r₀, hr₀, hdescends⟩ := extends_step h k r hr
        cases hr'.symm.trans hr₀
        simp only [hr, Option.map_some, entry, identity_descends hdescends]
        exact hop_of_next (stage_step hreach hr hrow hdescends.operationId) _
      · rw [hnone]
        exact .book _

/-- The step that starts an SDK write is the send of its operation. -/
theorem send_step (hreach : Reachable env ok s) (h : Transition s a s') (hnew : s'.starts ≠ s.starts) :
    Step (view s) (view s') := by
  have hs := reachable_inv hreach
  cases h with
  | crash | unopened | unreviewed | reviewed | opened => exact absurd rfl hnew
  | @thread p t i sh ph _ _ hp _ hmove =>
      have hok := (hs.process p hp).threads t
      generalize p.threads t = ph₀ at hmove hok
      cases hmove with
      | quiet | admitted | marked | finished | refused | blocked | recorded => exact absurd rfl hnew
      | @started c row q =>
          obtain ⟨_, hflight, hunsent, _⟩ := hok
          have hstored : s.journal.row row.operationId = some (row.markDispatch q.merged) := hflight
          refine .send (k := row.operationId) (i := identity (row.markDispatch q.merged)) ?_ ?_ (fun k hk => ?_) rfl
          · have harmed : stage s.starts (row.markDispatch q.merged) = .armed := stage_armed rfl hunsent
            simp only [view, hstored, Option.map_some, entry, harmed]
          · have hsent : stage (s.starts ++ [row.operationId]) (row.markDispatch q.merged) = .sent :=
              stage_sent rfl (List.mem_append_right _ (List.mem_singleton_self _))
            simp only [view, shared, hstored, Option.map_some, entry, hsent]
          · simp only [view, shared]
            cases hr : s.journal.row k with
            | none => rfl
            | some r =>
                simp only [Option.map_some, entry]
                rw [stage_append (row_key hr ▸ hk)]

/-- Every step of a deployment is one of its ledger. -/
theorem view_step (hreach : Reachable env ok s) (h : Transition s a s') : Step (view s) (view s') := by
  by_cases hsame : s'.starts = s.starts
  · exact quiet_step hreach h hsame
  · exact send_step hreach h hsame

theorem view_steps {as : List Action} (hreach : Reachable env ok s) (h : Path step ok s as s') : Steps (view s) (view s') := by
  induction h with
  | nil => exact .refl
  | cons hstep hok _ ih =>
      exact .head (view_step hreach (step_transition hstep)) (ih (hreach.step hstep hok))

theorem view_initial (env : Environment) : view (initial env) = empty := rfl

/-- A deployment, with its threads, its recovery checks, its crashes and restarts,
refines the ledger of operations that are sent at most once. So in every run the writes
started are those on record as sent or possibly sent, each once; an acknowledgement is
recorded of a write that was started; and once an operation is recorded as anything but
waiting or in dispatch, a write that has not started never does, its terms stay, and a
refusal or a settlement is final. -/
theorem refines_ledger {acts later : List Action} (h : run step (initial env) acts = some s)
    (h' : run step s later = some s') :
    Steps empty (view s) ∧ Steps (view s) (view s') ∧ Sound (view s) ∧
    ∀ op r, s.journal.row op = some r → ∃ r', s'.journal.row op = some r' ∧ identity r' = identity r ∧
      ((stage s.starts r).open = false → op ∉ s.starts → op ∉ s'.starts) ∧
      ((stage s.starts r).closed = true → stage s'.starts r' = stage s.starts r) := by
  have hstart : Reachable env free (initial env) := reachable_of_run [] rfl
  have hreach := reachable_of_run acts h
  have hbefore : Steps empty (view s) := view_initial env ▸ view_steps hstart (free_of_run h)
  have hafter := view_steps hreach (free_of_run h')
  refine ⟨hbefore, hafter, Steps.sound hbefore sound_empty, fun op r hr => ?_⟩
  have hentry : (view s).entries op = some (entry s.starts r) := by simp only [view, hr, Option.map_some]
  obtain ⟨e', he', hfollows⟩ := Steps.follows hafter hentry
  obtain ⟨r', hr', rfl⟩ := Option.map_eq_some_iff.mp he'
  exact ⟨r', hr', hfollows.identity, fun hshut hunsent => Steps.unsent hafter hentry hshut hunsent,
    fun hclosed => hfollows.closed hclosed⟩

/-- A paper placement, and the crash of its process right after the SDK write started. -/
theorem crashed_refines : ∃ s s', run step (initial .simulate) placementStart = some s ∧
    run step s [.crash] = some s' ∧ Steps (view s) (view s') := by
  refine ⟨_, _, rfl, rfl, ?_⟩
  exact (@refines_ledger .simulate _ _ placementStart [.crash] rfl rfl).2.1

end MoomooMcp.System
