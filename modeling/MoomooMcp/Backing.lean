import MoomooMcp.ControlContext
import MoomooMcp.Frames
import MoomooMcp.Invariant

namespace MoomooMcp.ControlContext

open Intent TradingControls Executor ExecutionStore Machine

theorem canonicalAccount_toString {n a : Account} (h : canonicalAccount (toString n) = .ok a) : a = n := by
  unfold canonicalAccount exactAccount at h
  split at h
  · cases h
  · split at h
    · cases h
    · cases h
      have hdigits : (toString n).toList = Nat.toDigits 10 n := Nat.toList_repr
      rw [Text.toNat, hdigits]
      have hvalue := Nat.ofDigitChars_ten_toDigits (n := n)
      rw [Nat.ofDigitChars_eq_foldl] at hvalue
      exact hvalue

theorem beforeDispatch_refused (sh : Shared) (row : Row) (p : Preparation.Prepared) (readyFault fault : Fault) (e : Exc) :
    (beforeDispatch sh row p readyFault (some e) fault).2.2 = sh.journal := by
  unfold beforeDispatch
  split
  · rfl
  · split <;> rfl

/-- A refusal of the controls or of their confirmation leaves no marker. -/
theorem mark_refused {sh sh' : Shared} {c : Request} {row : Row} {p : Preparation.Prepared} {ph' : Phase}
    {controls confirm : Option Exc} {readyFault fault : Fault} {relock : Option String}
    (h : act sh (.prepared c row p) (.mark controls readyFault confirm fault relock) = some (sh', ph'))
    (hrefused : controls ≠ none ∨ confirm ≠ none) : sh'.journal = sh.journal := by
  simp only [act, Option.some.injEq] at h
  cases controls with
  | some e => split at h <;> cases h <;> rfl
  | none =>
      cases confirm with
      | none => simp at hrefused
      | some e =>
          split at h
          · cases h; rfl
          · unfold markReal at h
            have hkept := beforeDispatch_refused sh row p readyFault fault e
            simp only [Preparation.require] at h
            split at h
            · next hb =>
                cases h
                rw [hb] at hkept
                exact hkept
            · next hb =>
                cases h
                rw [hb] at hkept
                exact hkept

/-- Only the marker step of a prepared operation commits a marker, and only once
the controls and the confirmation let it pass. -/
theorem act_marks {sh sh' : Shared} {ph ph' : Phase} {i : Input} (h : act sh ph i = some (sh', ph'))
    (hmark : sh'.journal.markers ≠ sh.journal.markers) : ∃ c row p readyFault fault relock,
      ph = .prepared c row p ∧ i = .mark none readyFault none fault relock ∧
        Marks row.operationId p.merged sh.journal sh'.journal := by
  have hmove := act_move h
  obtain ⟨c, row, p, hph, _, hcommit⟩ := hmove.markers.resolve_left hmark
  subst hph
  cases i with
  | mark controls readyFault confirm fault relock =>
      by_cases hrefused : controls ≠ none ∨ confirm ≠ none
      · rw [mark_refused h hrefused] at hmark
        exact absurd rfl hmark
      · obtain ⟨rfl, rfl⟩ : controls = none ∧ confirm = none := by simpa [not_or] using hrefused
        exact ⟨c, row, p, readyFault, fault, relock, rfl, rfl, hcommit⟩
  | _ =>
      refine absurd ?_ hmark
      cases hmove with
      | quiet => rfl

/-- What a step of one thread does to the executor it runs in. -/
structure Acts (j : System.Sys) (t : Tid) (i : Input) (j' : System.Sys) (p p' : System.Process) : Prop where
  process : j.process = some p
  process' : j'.process = some p'
  act : act (System.shared j p) (p.threads t) i = some (System.shared j' p', p'.threads t)
  others : ∀ u, u ≠ t → p'.threads u = p.threads u

theorem thread_acts {j j' : System.Sys} {t : Tid} {i : Input} (h : System.step j (.thread t i) = some j') :
    ∃ p p', Acts j t i j' p p' := by
  simp only [System.step] at h
  split at h
  · cases h
  · next p hp =>
      unfold System.threadStep at h
      split at h
      · cases h
      · split at h
        · cases h
        · next sh ph hact =>
            split at h
            · cases h
              refine ⟨p, _, hp, rfl, ?_, fun u hu => Function.update_of_ne hu _ _⟩
              dsimp only
              rw [Function.update_self]
              exact hact
            · cases h

variable {s s' : Sys} {t : Tid} {env : Environment} {i : Input}

/-- A step of one thread in one executor. -/
structure Stepped (s : Sys) (t : Tid) (env : Environment) (i : Input) (s' : Sys) : Prop where
  service : s'.service = s.service
  controls : s'.controls = s.controls
  journal : System.step (s.journals env) (.thread t i) = some (s'.journals env)
  elsewhere : ∀ e, e ≠ env → s'.journals e = s.journals e ∧ (phase s e t).resting = true
  locals : ∀ u, u ≠ t → s'.locals u = s.locals u
  own : (phase s' env t).resting = false → s'.locals t = s.locals t

theorem alone_rests (h : alone s t env = true) {e : Environment} (he : e ≠ env) : (phase s e t).resting = true := by
  cases env <;> cases e
  · exact absurd rfl he
  · exact h
  · exact h
  · exact absurd rfl he

theorem settle_frame (s : Sys) (t : Tid) (env : Environment) : (settle s t env).service = s.service ∧
    (settle s t env).controls = s.controls ∧ (settle s t env).journals = s.journals ∧
    (∀ u, u ≠ t → (settle s t env).locals u = s.locals u) ∧
    ((phase s env t).resting = false → (settle s t env).locals t = s.locals t) := by
  unfold settle
  split
  · next hrest => exact ⟨rfl, rfl, rfl, fun u hu => Function.update_of_ne hu _ _, fun h => by rw [hrest] at h; cases h⟩
  · exact ⟨rfl, rfl, rfl, fun _ _ => rfl, fun _ => rfl⟩

theorem stepThread_stepped (h : stepThread s t env i = some s') : Stepped s t env i s' := by
  unfold stepThread at h
  split at h
  · next halone =>
      obtain ⟨u, hu, rfl⟩ := Option.map_eq_some_iff.mp h
      obtain ⟨j, hj, rfl⟩ := Option.map_eq_some_iff.mp hu
      obtain ⟨hservice, hcontrols, hjournals, hlocals, hown⟩ :=
        settle_frame { s with journals := Function.update s.journals env j } t env
      refine ⟨hservice, hcontrols, ?_, ?_, hlocals, ?_⟩
      · rw [hjournals, hj]
        simp
      · intro e he
        rw [hjournals]
        exact ⟨Function.update_of_ne he _ _, alone_rests halone he⟩
      · intro hrest
        simp only [phase, hjournals] at hrest
        exact hown hrest
  · cases h

/-- The charge that an execution committed for the account it resolved. -/
def Reserved (policy : Policy) (history : List Budget.Commit) (active : Active) (account : Account) (env : Environment) :
    Prop :=
  ∃ k now, active.commit = some k ∧ k ∈ history ∧ active.reservedParameters = some (active.fixed account env) ∧
    k.reservation = active.reservation policy (active.fixed account env) ∧
    k.charge.Of (active.reservation policy (active.fixed account env)) now

/-- The context of a mutation that was not charged yet. -/
def Opened (l : Local) (env : Environment) (c : Request) : Prop :=
  ∃ active, l = ⟨some active, false⟩ ∧ presents env active.method active.parameters c

def Passed (policy : Policy) (history : List Budget.Commit) (l : Local) (env : Environment) (c : Request) (row : Row) :
    Prop :=
  ∃ active, l = ⟨some active, true⟩ ∧ presents env active.method active.parameters c ∧
    (policy.controlled = true → Reserved policy history active row.account env)

/-- What a thread carries to its marker. -/
def Carried (policy : Policy) (history : List Budget.Commit) (l : Local) (env : Environment) : Phase → Prop
  | .validated c | .queued c | .admitting c | .admitted c _ | .entered c _ => Opened l env c
  | .prepared c row _ => Opened l env c ∨ Passed policy history l env c row
  | _ => True

variable {policy : Policy} {history history' : List Budget.Commit} {l : Local} {ph ph' : Phase}

theorem Carried.resting (h : ph.resting = true) : Carried policy history l env ph := by
  cases ph with
  | idle | done | checked => trivial
  | _ => cases h

theorem Carried.grow (h : Carried policy history l env ph) (hsub : history ⊆ history') :
    Carried policy history' l env ph := by
  cases ph with
  | prepared c row p =>
      refine h.imp_right ?_
      rintro ⟨active, hl, hpresents, hreserved⟩
      refine ⟨active, hl, hpresents, fun hcontrolled => ?_⟩
      obtain ⟨k, now, hk, hmem, hmade⟩ := hreserved hcontrolled
      exact ⟨k, now, hk, hsub hmem, hmade⟩
  | _ => exact h

theorem recovering_carried (h : ph.recovering = true) : Carried policy history l env ph := by
  cases ph with
  | validated | queued | admitting | admitted | entered | prepared => cases h
  | _ => trivial

/-- An executor takes its context along from one program point to the next. -/
theorem Carried.move {sh sh' : Shared} (h : Carried policy history l env ph) (hmove : Move sh i ph sh' ph')
    (hplain : plain i = true) : Carried policy history l env ph' := by
  cases hmove with
  | quiet hquiet =>
      cases hquiet with
      | present | prepared => cases hplain
      | queued | admitting | entered => exact h
      | observed => exact recovering_carried (observe_recovering _ _ _ _)
      | blockFailed => exact recovering_carried (evidenceFailure_recovering _ _ _ _ _ _)
      | accounted => exact recovering_carried (account_recovering _ _ _ _ _)
      | _ => trivial
  | admitted _ _ _ _ hph =>
      rcases hph with ⟨rfl, _⟩ | ⟨⟨_, rfl⟩, _⟩
      · exact h
      · trivial
  | marked => cases hplain
  | blocked _ _ hph =>
      rcases hph with rfl | ⟨_, rfl⟩
      · trivial
      · exact recovering_carried (evidenceFailure_recovering _ _ _ _ _ _)
  | started | finished | refused | recorded => trivial

theorem Carried.present {sh sh' : Shared} {c : Request} {refusal : Option Exc} (h : Opened l env c)
    (hmove : Move sh (.present c refusal) ph sh' ph') : Carried policy history l env ph' := by
  cases hmove with
  | quiet hquiet =>
      cases hquiet with
      | present => exact h
      | reject | returned | refused => trivial

theorem Carried.prepare {sh sh' : Shared} {c : Request} {row : Row} {orders : Except Exc (List BrokerOrder)}
    {fault : Fault} {a : Preparation.Assessment} (h : Opened l env c)
    (hmove : Move sh (.prepare orders fault a) (.entered c row) sh' ph') : Carried policy history l env ph' := by
  cases hmove with
  | quiet hquiet =>
      cases hquiet with
      | prepared => exact .inl h
      | returned | refused => trivial

theorem Carried.mark {sh sh' : Shared} {c : Request} {row : Row} {p : Preparation.Prepared} {controls confirm : Option Exc}
    {readyFault fault : Fault} {relock : Option String}
    (hmove : Move sh (.mark controls readyFault confirm fault relock) (.prepared c row p) sh' ph') :
    Carried policy history l env ph' := by
  cases hmove with
  | quiet hquiet =>
      cases hquiet with
      | returned | refused => trivial
  | marked _ _ _ hph =>
      rcases hph with ⟨rfl, _⟩ | ⟨⟨_, rfl⟩, _⟩ <;> trivial

structure Inv (s : Sys) : Prop where
  sound : Budget.Sound s.controls
  intended : Budget.Intended s.controls.db
  journals : ∀ env, System.Inv (s.journals env)
  single : ∀ t e e', e' ≠ e → (phase s e t).resting = false → (phase s e' t).resting = true
  threads : ∀ t env, Carried s.service.policy s.controls.history (s.locals t) env (phase s env t)

/-- What a thread carries is its own business: a step of it has to keep this for
itself only. -/
theorem Inv.stepped (hs : Inv s) (h : Stepped (setLocal s t l) t env i s')
    (hown : ∀ sh sh', Move sh i (phase s env t) sh' (phase s' env t) →
      Carried s.service.policy s.controls.history l env (phase s' env t)) : Inv s' := by
  obtain ⟨p, p', hacts⟩ := thread_acts h.journal
  have hservice : s'.service = s.service := h.service
  have hcontrols : s'.controls = s.controls := h.controls
  have hself : ∀ u, phase s env u = p.threads u := by
    intro u
    have hp : (s.journals env).process = some p := hacts.process
    simp [phase, hp]
  have hself' : ∀ u, phase s' env u = p'.threads u := fun u => by simp [phase, hacts.process']
  have hkept : ∀ u, u ≠ t → ∀ e, phase s' e u = phase s e u := by
    intro u hu e
    by_cases he : e = env
    · subst e
      rw [hself', hself, hacts.others u hu]
    · have hsame := (h.elsewhere e he).1
      simp only [phase, hsame]
      rfl
  have helsewhere : ∀ e, e ≠ env → (phase s' e t).resting = true := by
    intro e he
    obtain ⟨hsame, hrest⟩ := h.elsewhere e he
    rw [phase, hsame]
    exact hrest
  refine ⟨by rw [hcontrols]; exact hs.sound, by rw [hcontrols]; exact hs.intended, ?_, ?_, ?_⟩
  · intro e
    by_cases he : e = env
    · subst e
      exact System.inv_step (hs.journals env) (System.step_transition h.journal)
    · rw [(h.elsewhere e he).1]
      exact hs.journals e
  · intro u e e' hne hbusy
    by_cases hu : u = t
    · subst u
      by_cases he : e = env
      · exact helsewhere e' (he ▸ hne)
      · rw [helsewhere e he] at hbusy
        cases hbusy
    · rw [hkept u hu] at hbusy ⊢
      exact hs.single u e e' hne hbusy
  · intro u e
    rw [hservice, hcontrols]
    by_cases hu : u = t
    · subst u
      by_cases he : e = env
      · subst e
        cases hrest : (phase s' env t).resting with
        | true => exact Carried.resting hrest
        | false =>
            rw [h.own hrest, setLocal_self]
            refine hown (System.shared (s.journals env) p) (System.shared (s'.journals env) p') ?_
            rw [hself, hself']
            exact act_move hacts.act
      · exact Carried.resting (helsewhere e he)
    · rw [h.locals u hu, setLocal_other s t l hu, hkept u hu]
      exact hs.threads u e

theorem setLocal_same (s : Sys) (t : Tid) : setLocal s t (s.locals t) = s := by
  simp [setLocal]

theorem check_reserves {service : Service} {operation : Option Active} {account : Account} {active : Active}
    {p : Parameters} (h : checkDispatchControls service operation account env = .ok (some (active, p))) :
    operation = some active ∧ p = active.fixed account env := by
  unfold checkDispatchControls at h
  split at h
  · cases h
  · split at h
    · cases h
    · split at h
      · cases h
      · split at h
        · cases h
        · split at h
          · cases h
          · cases h
            exact ⟨rfl, rfl⟩

theorem check_passes {service : Service} {operation : Option Active} {account : Account}
    (h : checkDispatchControls service operation account env = .ok none) : service.policy.controlled = false := by
  unfold checkDispatchControls at h
  split at h
  · next hfree => simpa using hfree
  · split at h
    · cases h
    · split at h
      · cases h
      · split at h
        · cases h
        · split at h <;> cases h

theorem Inv.marked {c : Request} {row : Row} {p : Preparation.Prepared} {controls confirm : Option Exc}
    {readyFault fault : Fault} {relock : Option String} (hs : Inv s) (hph : phase s env t = .prepared c row p)
    (h : stepThread s t env (.mark controls readyFault confirm fault relock) = some s') : Inv s' := by
  have hstepped := stepThread_stepped h
  rw [← setLocal_same s t] at hstepped
  refine hs.stepped hstepped (fun sh sh' hmove => ?_)
  rw [hph] at hmove
  exact Carried.mark hmove

theorem Inv.operate {a : Budget.Action} {controls : Budget.Sys} (hs : Inv s) (h : Budget.step s.controls a = some controls) :
    Inv { s with controls := controls } := by
  have hmove := Budget.step_move h
  refine ⟨Budget.move_sound hmove hs.intended hs.sound, Budget.move_intended hmove hs.intended, hs.journals, hs.single, ?_⟩
  intro t env
  exact (hs.threads t env).grow (Budget.move_history hmove)

/-- A thread that changes its own context has to answer for the program point it is at. -/
theorem Inv.setLocal (hs : Inv s) (hbusy : (phase s env t).resting = false)
    (hown : Carried s.service.policy s.controls.history l env (phase s env t)) : Inv (setLocal s t l) := by
  refine ⟨hs.sound, hs.intended, hs.journals, hs.single, fun u e => ?_⟩
  by_cases hu : u = t
  · subst u
    rw [setLocal_self]
    by_cases he : e = env
    · subst e
      exact hown
    · exact Carried.resting (hs.single t env e he hbusy)
  · rw [setLocal_other s t l hu]
    exact hs.threads u e

theorem Inv.reserve {c : Request} {row : Row} {p : Preparation.Prepared} {fault : Bool} {now later : ℚ} (hs : Inv s)
    (hph : phase s env t = .prepared c row p) (hopen : (s.locals t).passed = false)
    (h : reserve s t env row.account fault now later = some s') : Inv s' := by
  have hbusy : (phase s env t).resting = false := by rw [hph]; rfl
  have hcarried := hs.threads t env
  rw [hph] at hcarried
  have hopened : Opened (s.locals t) env c := by
    rcases hcarried with hopened | ⟨active, hl, _⟩
    · exact hopened
    · rw [hl] at hopen
      cases hopen
  obtain ⟨active, hl, hpresents⟩ := hopened
  unfold ControlContext.reserve at h
  split at h
  · exact hs.marked hph h
  · next hcheck =>
      cases h
      refine hs.setLocal hbusy ?_
      rw [hph, hl]
      refine .inr ⟨active, rfl, hpresents, fun hcontrolled => ?_⟩
      rw [check_passes hcheck] at hcontrolled
      cases hcontrolled
  · next active' fixed hcheck =>
      obtain ⟨hoperation, rfl⟩ := check_reserves hcheck
      rw [hl] at hoperation
      cases hoperation
      dsimp only at h
      split at h
      · cases h
      · next controls _ hstep => exact (hs.operate hstep).marked hph h
      · next controls hok hstep =>
          cases h
          refine (hs.operate hstep).setLocal hbusy ?_
          show Carried _ _ _ env (phase s env t)
          rw [hph]
          refine .inr ⟨_, rfl, hpresents, fun _ => ?_⟩
          obtain ⟨k, hhistory, hreservation, hmade⟩ := Budget.step_charged hstep hok
          refine ⟨k, now, ?_, ?_, rfl, hreservation, hmade⟩
          · simp [hhistory]
          · simp [hhistory]

theorem Inv.enter {active : Active} {c : Request} {refusal : Option Exc} (hs : Inv s)
    (h : enter s t env active c refusal = some s') : Inv s' := by
  unfold ControlContext.enter at h
  split at h
  · next hallowed =>
      exact hs.stepped (stepThread_stepped h) (fun sh sh' hmove => Carried.present ⟨active, rfl, hallowed.2⟩ hmove)
  · cases h

theorem Inv.assess {c : Request} {row : Row} {orders : Except Exc (List BrokerOrder)} {fault : Fault}
    {a : Preparation.Assessment} {contract : Contract} {valuation : Valuation} (hs : Inv s)
    (hph : phase s env t = .entered c row)
    (h : assess s t env c (.prepare orders fault a) contract valuation = some s') : Inv s' := by
  have hcarried := hs.threads t env
  rw [hph] at hcarried
  obtain ⟨active, hl, hpresents⟩ := hcarried
  refine hs.stepped (stepThread_stepped h) (fun sh sh' hmove => ?_)
  rw [hph] at hmove
  refine Carried.prepare ?_ hmove
  rw [hl]
  cases hassess : assesses env c with
  | true => exact ⟨active.assess s.service.policy contract valuation, rfl, hpresents⟩
  | false => exact ⟨active, rfl, hpresents⟩

theorem confirm_kept (s : Sys) (t : Tid) (fault : Bool) (now later : ℚ) :
    (confirm s t fault now later).2.db = s.controls.db ∧ (confirm s t fault now later).2.history = s.controls.history := by
  unfold confirm
  split
  · exact ⟨rfl, rfl⟩
  · exact ⟨rfl, rfl⟩
  · next r _ =>
      rcases hx : confirmReservation s.controls.store s.controls.db fault now later r with ⟨x, st, db⟩
      obtain ⟨rfl, _⟩ := confirmReservation_cases hx
      exact ⟨rfl, rfl⟩

theorem Inv.confirm (hs : Inv s) (fault : Bool) (now later : ℚ) :
    Inv { s with controls := (confirm s t fault now later).2 } := by
  unfold ControlContext.confirm
  split
  · exact hs
  · exact hs
  · next r _ => exact hs.operate (a := .confirm fault now later r) rfl

theorem Inv.reopened {epoch : Epoch} {fault reviewFault : Fault} (hs : Inv s)
    (h : stepJournal s env (.reopen epoch fault reviewFault) = some s') : Inv s' := by
  obtain ⟨j, hj, rfl⟩ := Option.map_eq_some_iff.mp h
  have htransition := System.step_transition hj
  have hidle : ∀ t, j.process.elim Phase.idle (fun p => p.threads t) = .idle := by
    intro t
    cases hp : j.process with
    | none => rfl
    | some p =>
        rcases htransition.process_cases hp with ⟨_, _, _, ha, _⟩ | hidle
        · cases ha
        · exact hidle t
  have hphase : ∀ t, phase { s with journals := Function.update s.journals env j } env t = .idle := by
    intro t
    simp only [phase, Function.update_self]
    exact hidle t
  have hkept : ∀ e, e ≠ env → ∀ t, phase { s with journals := Function.update s.journals env j } e t = phase s e t := by
    intro e he t
    simp only [phase, Function.update_of_ne he]
  refine ⟨hs.sound, hs.intended, ?_, ?_, ?_⟩
  · intro e
    by_cases he : e = env
    · subst e
      simp only [Function.update_self]
      exact System.inv_step (hs.journals env) htransition
    · simp only [Function.update_of_ne he]
      exact hs.journals e
  · intro t e e' hne hbusy
    by_cases he : e' = env
    · rw [he, hphase]
      rfl
    · rw [hkept e' he]
      by_cases he' : e = env
      · rw [he', hphase] at hbusy
        cases hbusy
      · rw [hkept e he'] at hbusy
        exact hs.single t e e' hne hbusy
  · intro t e
    by_cases he : e = env
    · rw [he, hphase]
      trivial
    · rw [hkept e he]
      exact hs.threads t e

theorem inv_step {a : Action} (hs : Inv s) (h : step s a = some s') : Inv s' := by
  cases a with
  | start service =>
      simp only [step] at h
      split at h
      · next hdown =>
          cases h
          have hidle : ∀ e t, phase s e t = .idle := by
            intro e t
            cases e
            · simp [phase, Option.isNone_iff_eq_none.mp hdown.1]
            · simp [phase, Option.isNone_iff_eq_none.mp hdown.2]
          refine ⟨⟨hs.sound.budget, hs.sound.charged, hs.sound.once, hs.sound.authorised, hs.sound.single⟩, hs.intended,
            hs.journals, hs.single, fun t e => ?_⟩
          show Carried _ _ _ e (phase s e t)
          rw [hidle]
          trivial
      · cases h
  | reopen env epoch fault reviewFault => exact hs.reopened h
  | crash =>
      cases h
      refine ⟨hs.sound, hs.intended, ?_, fun _ _ _ _ _ => rfl, fun _ _ => trivial⟩
      intro e
      exact System.inv_step (hs.journals e) (.crash)
  | operator a =>
      simp only [step] at h
      split at h
      · obtain ⟨controls, hstep, rfl⟩ := Option.map_eq_some_iff.mp h
        exact hs.operate hstep
      · cases h
  | enter t env method p approvalId c refusal => exact hs.enter h
  | thread t env i =>
      simp only [step] at h
      split at h
      · next hplain =>
          have hstepped := stepThread_stepped h
          rw [← setLocal_same s t] at hstepped
          exact hs.stepped hstepped (fun sh sh' hmove => (hs.threads t env).move hmove hplain)
      · cases h
  | assess t env orders fault a contract valuation =>
      simp only [step] at h
      split at h
      · next hph => exact hs.assess hph h
      · cases h
  | reserve t env fault now later =>
      simp only [step] at h
      split at h
      · next hph hopen => exact hs.reserve hph hopen h
      · cases h
  | refuse t env e =>
      simp only [step] at h
      split at h
      · next hph => exact hs.marked hph h
      · cases h
  | mark t env readyFault confirmFault now later fault relock =>
      simp only [step] at h
      split at h
      · next hph _ => exact (hs.confirm confirmFault now later).marked hph h
      · cases h

theorem inv_initial : Inv initial :=
  ⟨Budget.sound_initial, (fun _ _ h => by cases h), System.inv_initial, fun _ _ _ _ _ => rfl, fun _ _ => trivial⟩

theorem run_inv {as : List Action} (h : run step initial as = some s) : Inv s := by
  have hpath : Path step free initial as s := free_of_run h
  exact hpath.invariant inv_initial (fun _ _ _ hs hstep _ => inv_step hs hstep)

/-- What backs the marker of an operation: the only charge it has. This execution
committed it for the outer request with its account resolved, and it was dated today
when it was confirmed. An approval was used up by this charge alone, was still valid,
and is of the request and the contract of this execution. -/
structure Backed (policy : Policy) (controls : Budget.Sys) (env : Environment) (active : Active) (row : Row)
    (now later : ℚ) (c : Charge) : Prop where
  operation : active.parameters.operationId = some row.operationId
  only : ∀ c' ∈ controls.db.charges.rows,
    c'.environment = env.text ∧ c'.account = row.account ∧ c'.operationId = row.operationId ↔ c' = c
  charged : c ∈ controls.db.charges.rows
  committed : ∃ k, active.commit = some k ∧ k ∈ controls.history ∧ k.charge = c
  canonical : canonicalIntent active.method (active.fixed row.account env) = .ok c.canonical
  day : c.day = utcDay now
  approved : policy.requireApproval = true → ∃ id request, active.approvalId = some id ∧
    controls.db.prepared.lookup id = some request ∧ request.status = .consumed ∧ c.approvalId = some id ∧
    (∀ k ∈ controls.history, k.reservation.requireApproval = true → k.reservation.approvalId = some id → k.charge = c) ∧
    later < request.expiresAt ∧ request.canonical = c.canonical ∧ request.review.contract = active.contract

theorem Backed.same {controls controls' : Budget.Sys} {active : Active} {row : Row} {now later : ℚ} {c : Charge}
    (h : Backed policy controls env active row now later c) (hdb : controls'.db = controls.db)
    (hhistory : controls'.history = controls.history) : Backed policy controls' env active row now later c := by
  refine ⟨h.operation, ?_, ?_, ?_, h.canonical, h.day, ?_⟩
  · rw [hdb]
    exact h.only
  · rw [hdb]
    exact h.charged
  · rw [hhistory]
    exact h.committed
  · rw [hdb, hhistory]
    exact h.approved

theorem Charge.Of.key {c : Charge} {active : Active} {account : Account} {now : ℚ} {op : OperationId}
    (h : c.Of (active.reservation policy (active.fixed account env)) now)
    (hop : active.parameters.operationId = some op) : c.key = (env.text, account, op) := by
  have haccount := canonicalAccount_toString h.account
  have hoperation := h.operation
  unfold operation at hoperation
  split at hoperation
  · have hfound : active.parameters.operationId = some c.operationId := (Option.filter_eq_some_iff.mp hoperation).1
    rw [hop] at hfound
    cases hfound
    rw [Charge.key, h.environment, haccount]
    rfl
  · cases hoperation

/-- Two charges under one approval are the same. -/
theorem single_charge {controls : Budget.Sys} (h : Budget.Sound controls) {k k' : Budget.Commit}
    (hk : k ∈ controls.history) (hk' : k' ∈ controls.history) (hreq : k.reservation.requireApproval = true)
    (hreq' : k'.reservation.requireApproval = true) (hid : k.reservation.approvalId = k'.reservation.approvalId) :
    k = k' := by
  have hsingle := h.single
  unfold Budget.used at hsingle
  exact List.inj_on_of_nodup_map hsingle (List.mem_filter.mpr ⟨hk, hreq⟩) (List.mem_filter.mpr ⟨hk', hreq'⟩) hid

/-- A confirmation that passes leaves no doubt about where the reservation came from. -/
theorem Reserved.backed {controls : Budget.Sys} {active : Active} {row : Row} {now later : ℚ} {c : Charge}
    (h : Reserved policy controls.history active row.account env) (hsound : Budget.Sound controls)
    (hop : active.parameters.operationId = some row.operationId)
    (hconfirms : Confirms controls.db now later (active.reservation policy (active.fixed row.account env)) c) :
    Backed policy controls env active row now later c := by
  obtain ⟨k, _, hcommit, hmem, _, hreservation, hof⟩ := h
  have hkey := Charge.Of.key hof hop
  have hrows : k.charge ∈ controls.db.charges.rows := by
    rw [← hsound.charged]
    exact List.mem_map_of_mem hmem
  obtain ⟨account, haccount, hfound⟩ := hconfirms.charged
  have hlookup : controls.db.charges.lookup (env.text, row.account, row.operationId) = some c := by
    rw [canonicalAccount_toString haccount] at hfound
    simp only [Active.reservation, Active.fixed, hop, Option.getD_some] at hfound
    exact hfound
  have hsame : k.charge = c := by
    have hown := Table.mem_iff_lookup.mp hrows
    rw [hkey, hlookup] at hown
    exact (Option.some.inj hown).symm
  refine ⟨hop, ?_, ?_, ⟨k, hcommit, hmem, hsame⟩, hconfirms.canonical, hconfirms.day, ?_⟩
  · intro c' hc'
    constructor
    · rintro ⟨henvironment, haccount', hoperation⟩
      have hown := Table.mem_iff_lookup.mp hc'
      rw [Charge.key, henvironment, haccount', hoperation, hlookup] at hown
      exact (Option.some.inj hown).symm
    · rintro rfl
      rw [hsame] at hkey
      exact ⟨congrArg (fun x => x.1) hkey, congrArg (fun x => x.2.1) hkey, congrArg (fun x => x.2.2) hkey⟩
  · rw [← hsame]
    exact hrows
  · intro hreq
    obtain ⟨id, request, hid, hrequest, hcanonical, hstatus, happroval, hlater, hcontract⟩ := hconfirms.approved hreq
    refine ⟨id, request, hid, hrequest, hstatus, happroval, ?_, hlater, hcanonical, hcontract⟩
    intro k' hk' hreq' hid'
    have hone : k' = k := by
      refine single_charge hsound hk' hmem hreq' ?_ ?_
      · rw [hreservation]
        exact hreq
      · rw [hid', hreservation]
        exact hid.symm
    rw [hone, hsame]

theorem confirmDispatchControls_ok {service : Service} {active : Active} {p : Parameters} {x : Option Reservation}
    (hcontrolled : service.policy.controlled = true) (hparameters : active.reservedParameters = some p)
    (h : confirmDispatchControls service (some active) = .ok x) : x = some (active.reservation service.policy p) := by
  simp only [confirmDispatchControls, hcontrolled, hparameters, Option.bind_some, Option.map_some] at h
  split at h
  · next hfree => cases hfree
  · split at h <;> cases h
    rfl

/-- The row of a prepared operation is the one its thread was given. -/
theorem phase_admitted {c : Request} {row : Row} {p : Preparation.Prepared} (hs : Inv s)
    (hph : phase s env t = .prepared c row p) :
    Admitted (s.journals env).journal.environment c row ∧ Fresh (s.journals env).journal row := by
  unfold phase at hph
  cases hq : (s.journals env).process with
  | none => rw [hq] at hph; cases hph
  | some q =>
      rw [hq] at hph
      have hat : q.threads t = .prepared c row p := hph
      have hthread := ((hs.journals env).process q hq).threads t
      rw [hat] at hthread
      exact ⟨hthread.1, hthread.2.1⟩

/-- What a passed check and a passed confirmation come to. -/
theorem Inv.confirmed {c : Request} {row : Row} {p : Preparation.Prepared} {fault : Bool} {now later : ℚ} (hs : Inv s)
    (hph : phase s env t = .prepared c row p) (hpassed : (s.locals t).passed = true)
    (hcontrolled : s.service.policy.controlled = true)
    (hok : (ControlContext.confirm s t fault now later).1 = .ok ()) :
    ∃ active charge, (s.locals t).operation = some active ∧ presents env active.method active.parameters c ∧
      Backed s.service.policy s.controls env active row now later charge := by
  have hcarried := hs.threads t env
  rw [hph] at hcarried
  rcases hcarried with ⟨active, hl, _⟩ | ⟨active, hl, hpresents, hreserved⟩
  · rw [hl] at hpassed
    cases hpassed
  have hcommitted := hreserved hcontrolled
  have hparameters : active.reservedParameters = some (active.fixed row.account env) := by
    obtain ⟨_, _, _, _, hparameters, _⟩ := hcommitted
    exact hparameters
  have hop : active.parameters.operationId = some row.operationId := by
    rw [(phase_admitted hs hph).1.operationId]
    exact hpresents.2.2.1
  have hl' : (s.locals t).operation = some active := by rw [hl]
  refine ⟨active, ?_⟩
  unfold ControlContext.confirm at hok
  rw [hl'] at hok
  split at hok
  · cases hok
  · next hnone => cases confirmDispatchControls_ok hcontrolled hparameters hnone
  · next r hsome =>
      cases confirmDispatchControls_ok hcontrolled hparameters hsome
      rcases hx : confirmReservation s.controls.store s.controls.db fault now later
        (active.reservation s.service.policy (active.fixed row.account env)) with ⟨x, st, db⟩
      rw [hx] at hok
      obtain ⟨charge, hconfirms⟩ := (confirmReservation_cases hx).2 hok
      exact ⟨charge, hl', hpresents, hcommitted.backed hs.sound hop hconfirms⟩

theorem stepThread_marks {e : Environment} (h : stepThread s t e i = some s')
    (hmark : (s'.journals env).journal.markers ≠ (s.journals env).journal.markers) :
    e = env ∧ ∃ c row p readyFault fault relock, phase s env t = .prepared c row p ∧
      i = .mark none readyFault none fault relock ∧
      Marks row.operationId p.merged (s.journals env).journal (s'.journals env).journal := by
  have hstepped := stepThread_stepped h
  by_cases he : e = env
  · subst e
    obtain ⟨p, p', hacts⟩ := thread_acts hstepped.journal
    obtain ⟨c, row, q, readyFault, fault, relock, hph, hi, hcommit⟩ := act_marks hacts.act hmark
    refine ⟨rfl, c, row, q, readyFault, fault, relock, ?_, hi, hcommit⟩
    simpa [phase, hacts.process] using hph
  · rw [(hstepped.elsewhere env (Ne.symm he)).1] at hmark
    exact absurd rfl hmark

theorem reopen_markers {j j' : System.Sys} {epoch : Epoch} {fault reviewFault : Fault}
    (h : System.step j (.reopen epoch fault reviewFault) = some j') : j'.journal.markers = j.journal.markers := by
  cases System.step_transition h with
  | unopened => rfl
  | unreviewed _ hstartup => dsimp only; rw [hstartup.rest]
  | reviewed _ hstartup hreview | opened _ hstartup hreview => dsimp only; rw [hreview.rest, hstartup.rest]

theorem failure_none {x : Except Exc Unit} (h : failure x = none) : x = .ok () := by
  cases x with
  | ok => rfl
  | error e => cases h

/-- Only a marker step whose checks passed writes a marker. -/
theorem step_marks {a : Action} (h : step s a = some s')
    (hmark : (s'.journals env).journal.markers ≠ (s.journals env).journal.markers) :
    ∃ t readyFault confirmFault now later fault relock c row p,
      a = .mark t env readyFault confirmFault now later fault relock ∧ phase s env t = .prepared c row p ∧
        (s.locals t).passed = true ∧ (confirm s t confirmFault now later).1 = .ok () ∧
        s'.controls = (confirm s t confirmFault now later).2 ∧
        Marks row.operationId p.merged (s.journals env).journal (s'.journals env).journal := by
  cases a with
  | start service =>
      simp only [step] at h
      split at h <;> cases h
      exact absurd rfl hmark
  | crash => cases h; exact absurd rfl hmark
  | operator a =>
      simp only [step] at h
      split at h
      · obtain ⟨_, _, rfl⟩ := Option.map_eq_some_iff.mp h
        exact absurd rfl hmark
      · cases h
  | reopen e epoch fault reviewFault =>
      obtain ⟨j, hj, rfl⟩ := Option.map_eq_some_iff.mp h
      by_cases he : env = e
      · subst e
        simp only [Function.update_self] at hmark
        exact absurd (reopen_markers hj) hmark
      · simp only [Function.update_of_ne he] at hmark
        exact absurd rfl hmark
  | enter t e method p approvalId c refusal =>
      simp only [step, enter] at h
      split at h
      · obtain ⟨_, _, _, _, _, _, _, _, hi, _⟩ := stepThread_marks h hmark
        cases hi
      · cases h
  | thread t e i =>
      simp only [step] at h
      split at h
      · next hplain =>
          obtain ⟨_, _, _, _, _, _, _, _, rfl, _⟩ := stepThread_marks h hmark
          cases hplain
      · cases h
  | assess t e orders fault a contract valuation =>
      simp only [step] at h
      split at h
      · obtain ⟨_, _, _, _, _, _, _, _, hi, _⟩ := stepThread_marks h hmark
        cases hi
      · cases h
  | reserve t e fault now later =>
      simp only [step] at h
      split at h
      · unfold reserve at h
        split at h
        · obtain ⟨_, _, _, _, _, _, _, _, hi, _⟩ := stepThread_marks h hmark
          cases hi
        · cases h; exact absurd rfl hmark
        · dsimp only at h
          split at h
          · cases h
          · obtain ⟨_, _, _, _, _, _, _, _, hi, _⟩ := stepThread_marks h hmark
            cases hi
          · cases h; exact absurd rfl hmark
      · cases h
  | refuse t e exc =>
      simp only [step] at h
      split at h
      · obtain ⟨_, _, _, _, _, _, _, _, hi, _⟩ := stepThread_marks h hmark
        cases hi
      · cases h
  | mark t e readyFault confirmFault now later fault relock =>
      simp only [step] at h
      split at h
      · next hpassed =>
          obtain ⟨rfl, c, row, p, readyFault', fault', relock', hph, hi, hcommit⟩ := stepThread_marks h hmark
          simp only [Input.mark.injEq, true_and] at hi
          exact ⟨t, readyFault, confirmFault, now, later, fault, relock, c, row, p, rfl, hph, hpassed,
            failure_none hi.2.1, (stepThread_stepped h).controls, hcommit⟩
      · cases h

/-- Whatever the threads of both executors did before, a marker that is written under
approvals or a daily budget is backed by the charge of the execution that writes it. -/
theorem dispatch_backed {as : List Action} {a : Action} {op : OperationId} (h : run step initial as = some s)
    (hstep : step s a = some s') (hcontrolled : s.service.policy.controlled = true)
    (hmark : (s'.journals env).journal.markers = (s.journals env).journal.markers ++ [op]) :
    ∃ t readyFault confirmFault now later fault relock row active charge,
      a = .mark t env readyFault confirmFault now later fault relock ∧
        (s.journals env).journal.row op = some row ∧ row.operationId = op ∧ (s.locals t).operation = some active ∧
        Backed s.service.policy s'.controls env active row now later charge := by
  have hs := run_inv h
  have hgrown : (s'.journals env).journal.markers ≠ (s.journals env).journal.markers := by
    rw [hmark]
    simp
  obtain ⟨t, readyFault, confirmFault, now, later, fault, relock, c, row, p, rfl, hph, hpassed, hok, hcontrols, hcommit⟩ :=
    step_marks hstep hgrown
  obtain ⟨active, charge, hoperation, _, hbacked⟩ := hs.confirmed hph hpassed hcontrolled hok
  have hop : row.operationId = op := by
    have hmarkers := hmark
    rw [hcommit.rest] at hmarkers
    simpa using hmarkers
  have hrow : (s.journals env).journal.row op = some row := by
    rw [← hop]
    exact (phase_admitted hs hph).2.stored
  obtain ⟨hdb, hhistory⟩ := confirm_kept s t confirmFault now later
  refine ⟨t, readyFault, confirmFault, now, later, fault, relock, row, active, charge, rfl, hrow, hop, hoperation, ?_⟩
  rw [hcontrols]
  exact hbacked.same hdb hhistory

def samplePolicy : Policy := ⟨true, [("USD", ⟨500, 0⟩)]⟩

def sampleParameters : Parameters :=
  ⟨"SIMULATE", "7", some "op-1", some "e1", none, none, [("qty", .number (.finite ⟨10, 0⟩))]⟩

def sampleContract : Contract := ⟨"NORMAL", "BUY", "10", some "12.05", none, false, [⟨"US.AAPL", "1", some "1"⟩]⟩

def sampleRequest : Request :=
  ⟨"op-1", "e1", .place, { code := some ⟨some "US", "AAPL"⟩, qty := some 10, price := some 12, trdSide := some .buy }, 7⟩

/-- A paper order that an operator approved, up to its marker. -/
def sampleRun : List Action :=
  [.start ⟨samplePolicy, true⟩, .reopen .simulate "e1" .none .none,
    .operator (.prepare false 100 "request-1" "place_order" sampleParameters ⟨some sampleContract, ""⟩ 300),
    .operator (.decide false 110 110 "request-1" "APPROVED" "operator" "reviewed"),
    .enter 0 .simulate "place_order" sampleParameters (some "request-1") sampleRequest none,
    .thread 0 .simulate (.lookup none .none), .thread 0 .simulate (.preflight none .none .none),
    .thread 0 .simulate (.admitOperation (.ok 7) "u1" none .none), .thread 0 .simulate (.enter .none),
    .assess 0 .simulate (.ok []) .none ⟨none, none, none⟩ sampleContract ⟨"USD", .finite ⟨12050, -2⟩⟩,
    .reserve 0 .simulate false 120 120]

def sampleMark : Action := .mark 0 .simulate .none false 130 130 .none none

theorem approved_dispatch_backed : ∃ s s', run step initial sampleRun = some s ∧ step s sampleMark = some s' ∧
    ∃ t readyFault confirmFault now later fault relock row active charge,
      sampleMark = .mark t .simulate readyFault confirmFault now later fault relock ∧
        (s.journals .simulate).journal.row "op-1" = some row ∧ row.operationId = "op-1" ∧
        (s.locals t).operation = some active ∧
        Backed s.service.policy s'.controls .simulate active row now later charge := by
  have hrun : (run step initial sampleRun).any (fun s => (step s sampleMark).any (fun s' =>
      s.service.policy.controlled &&
        (s'.journals .simulate).journal.markers == (s.journals .simulate).journal.markers ++ ["op-1"])) = true := by
    decide +kernel
  obtain ⟨s, hs, hstep⟩ := (Option.any_eq_true _ _).mp hrun
  obtain ⟨s', hs', hchecked⟩ := (Option.any_eq_true _ _).mp hstep
  obtain ⟨hcontrolled, hmark⟩ := Bool.and_eq_true_iff.mp hchecked
  exact ⟨s, s', hs, hs', dispatch_backed hs hs' hcontrolled (beq_iff_eq.mp hmark)⟩

end MoomooMcp.ControlContext
