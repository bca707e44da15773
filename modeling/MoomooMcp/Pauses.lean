import MoomooMcp.Halt

namespace MoomooMcp.Gateway

open CriticalSection TradingControls Machine

section Entries

variable {db : Database} {p : Pause} {scope : Scope}

/-- The entry of a scope is the account's own or the environment's. -/
def covers (scope : Scope) (env : Environment) (account : Account) : Prop :=
  scope.1 = env ∧ (scope.2 = 0 ∨ scope.2 = account)

/-- The operator's last word on a scope is a pause. -/
def Suspended (db : Database) (scope : Scope) : Prop := ∃ p, db.pauses.lookup scope = some p ∧ p.paused = true

theorem setPause_lookup (db : Database) (p : Pause) (scope : Scope) :
    ((db.setPause p).pauses.lookup scope).map (·.paused) =
      if scope = p.scope then some p.paused else (db.pauses.lookup scope).map (·.paused) := by
  unfold Database.setPause
  split
  · next hnew =>
      rw [Table.lookup_insert]
      split
      · rfl
      · rfl
  · next hold =>
      rw [Table.lookup_modify]
      split
      · next he =>
          subst he
          cases hl : db.pauses.lookup p.scope with
          | none => exact absurd hl hold
          | some old => rfl
      · rfl

theorem suspended_iff : Suspended db scope ↔ (db.pauses.lookup scope).map (·.paused) = some true := by
  rw [Option.map_eq_some_iff]
  rfl

theorem suspended_covers {env : Environment} {account : Account} (h : Suspended db scope)
    (hc : covers scope env account) : paused db (env, account) = true := by
  obtain ⟨entry, hentry, hpaused⟩ := h
  obtain ⟨rfl, haccount⟩ := hc
  obtain ⟨env, own⟩ := scope
  simp only [paused, List.any_eq_true]
  refine ⟨entry, ?_, hpaused⟩
  simp only at haccount
  rw [decisions, List.mem_append]
  rcases haccount with rfl | rfl
  · exact .inl (by rw [hentry]; exact List.mem_singleton.mpr rfl)
  · by_cases hzero : own = 0
    · subst hzero
      exact .inl (by rw [hentry]; exact List.mem_singleton.mpr rfl)
    · right
      rw [if_neg hzero, hentry]
      exact List.mem_singleton.mpr rfl

end Entries

/-- The write a paper thread is past the operator's gate with, and has not sent yet. -/
def Phase.gated : Phase → Option PaperWrite
  | .marking w | .sending w => some w
  | _ => none

/-- The points of a paper write inside its lock. -/
def Phase.papering : Phase → Bool
  | .preparing _ | .marking _ | .sending _ | .requesting _ | .closing _ _ => true
  | _ => false

/-- The action starts an SDK write that adds risk to an account. -/
def StartsRisk (s : Sys) (a : Action) (env : Environment) (account : Account) : Prop :=
  (∃ w, Starts s a w ∧ w.operation.addsExposure = true ∧ env = .real ∧ account = w.account) ∨
    ∃ t w, a = .thread t (.start none) ∧ s.threads t = .sending w ∧ w.kind ≠ .cancel ∧ env = .simulate ∧
      account = w.account

/-- The REAL write that is past the gate found no covering pause, and a pause call that
is about to return finds its decision in force. -/
structure Cleared (cfg : Config) (sh : Shared) (within : Option Phase) : Prop where
  write : ∀ ph w, within = some ph → ph.cleared = some w → w.operation.addsExposure = true → cfg.controls = true →
    paused sh.db (.real, w.account) = false
  decision : ∀ r b scope, within = some (.suspended r (.ok b)) → pauseScope r.environment r.account = .ok scope →
    (sh.db.pauses.lookup scope).map (·.paused) = some r.paused

/-- A paper write that is past the gate found no covering pause. -/
structure Gated (cfg : Config) (sh : Shared) (within : Option Phase) : Prop where
  configured : ∀ ph, within = some ph → ph.papering = true → cfg.paper = true
  write : ∀ ph w, within = some ph → ph.gated = some w → w.kind ≠ .cancel → cfg.controls = true →
    paused sh.db (.simulate, w.account) = false

variable {cfg : Config} {free : Bool} {sh sh' : Shared} {ph ph' : Phase} {i : Input} {w w' : Option Phase}

/-- A step that leaves the controls alone and passes no gate. -/
theorem Cleared.quiet (h : Cleared cfg sh w) (ht : Turn Phase.inJit w ph ph' w') (hdb : sh'.db = sh.db)
    (hcleared : ∀ x, ph'.cleared = some x → ph.cleared = some x)
    (hdecision : ∀ r b, ph' ≠ .suspended r (.ok b)) : Cleared cfg sh' w' := by
  constructor
  · intro ph₀ x hph₀ hx hexposing hcontrols
    rw [hdb]
    cases ht with
    | stays _ _ => cases hph₀; exact h.write ph x rfl (hcleared x hx) hexposing hcontrols
    | leaves _ _ => cases hph₀
    | enters hold _ => cases hph₀; rw [cleared_inside (hcleared x hx)] at hold; cases hold
    | apart _ _ => exact h.write ph₀ x hph₀ hx hexposing hcontrols
  · intro r b scope hw hscope
    rw [hdb]
    cases ht with
    | stays _ _ | enters _ _ => exact absurd (Option.some.inj hw) (hdecision r b)
    | leaves _ _ => cases hw
    | apart _ _ => exact h.decision r b scope hw hscope

theorem gated_papering {x : PaperWrite} (h : ph.gated = some x) : ph.papering = true := by
  cases ph with
  | marking _ | sending _ => rfl
  | _ => cases h

theorem papering_inside (h : ph.papering = true) : ph.inPaper cfg = true := by
  cases ph with
  | preparing _ | marking _ | sending _ | requesting _ | closing _ _ => rfl
  | _ => cases h

/-- A step that leaves the controls alone, starts no paper write and passes no gate. -/
theorem Gated.quiet (h : Gated cfg sh w) (ht : Turn (Phase.inPaper cfg) w ph ph' w') (hdb : sh'.db = sh.db)
    (hpapering : ph'.papering = true → ph.papering = true)
    (hgated : ∀ x, ph'.gated = some x → ph.gated = some x) : Gated cfg sh' w' := by
  constructor
  · intro ph₀ hph₀ hp
    cases ht with
    | stays _ _ => cases hph₀; exact h.configured ph rfl (hpapering hp)
    | leaves _ _ => cases hph₀
    | enters hold _ =>
        cases hph₀
        have hinside : ph.inPaper cfg = true := papering_inside (hpapering hp)
        rw [hinside] at hold
        cases hold
    | apart _ _ => exact h.configured ph₀ hph₀ hp
  · intro ph₀ x hph₀ hx hkind hcontrols
    rw [hdb]
    cases ht with
    | stays _ _ => cases hph₀; exact h.write ph x rfl (hgated x hx) hkind hcontrols
    | leaves _ _ => cases hph₀
    | enters hold _ =>
        cases hph₀
        have hinside : ph.inPaper cfg = true := papering_inside (gated_papering (hgated x hx))
        rw [hinside] at hold
        cases hold
    | apart _ _ => exact h.write ph₀ x hph₀ hx hkind hcontrols

theorem lockGateway_db (sh : Shared) (r : Reply) : (lockGateway sh r).1.db = sh.db := by
  cases r with
  | ok | refused _ | raised _ _ => rfl

theorem fresh_undecided (hfresh : ph.fresh = true) (r : PauseRequest) (b : Bool) : ph ≠ .suspended r (.ok b) := by
  rintro rfl
  cases hfresh

theorem cleared_move (hm : Move cfg free sh ph i sh' ph') (ht : Turn Phase.inJit w ph ph' w') (h : Cleared cfg sh w) :
    Cleared cfg sh' w' := by
  cases hm with
  | begun _ hfresh =>
      have hnone := fresh_uncleared hfresh
      exact h.quiet ht rfl (fun x hx => by rw [hnone] at hx; cases hx) (fresh_undecided hfresh)
  | opened hph =>
      rcases hph with ⟨r, rfl⟩ | ⟨rfl, _⟩
      · exact h.quiet ht rfl nofun nofun
      · exact h.quiet ht rfl nofun nofun
  | resolved hph =>
      rcases hph with ⟨r, rfl⟩ | rfl
      · exact h.quiet ht rfl nofun nofun
      · exact h.quiet ht rfl nofun nofun
  | assessed hclear =>
      obtain ⟨_, rfl⟩ := ht.inner rfl
      refine ⟨fun ph₀ x hph₀ hx hexposing => ?_, nofun⟩
      cases hph₀
      cases hx
      exact (hclear hexposing).2
  | admitted =>
      refine h.quiet ht rfl (fun x hx => ?_) (fun r b => ?_)
      · split at hx <;> exact hx
      · split <;> exact nofun
  | unlocked | marked => exact h.quiet ht rfl (fun _ hx => hx) nofun
  | settled hph =>
      refine h.quiet ht rfl (fun x hx => ?_) (fun r b => ?_)
      · unfold afterWrite at hx
        split at hx <;> cases hx
      · unfold afterWrite
        split <;> exact nofun
  | @suspended r fault readFault now result st db hset =>
      obtain ⟨_, rfl⟩ := ht.inner rfl
      constructor
      · intro ph₀ x hph₀ hx
        cases hph₀
        cases hx
      · intro r' b scope hw hscope
        cases hw
        rcases setPaused_cases hset with ⟨⟨_, he⟩, _⟩ | ⟨scope', hscope', rfl⟩
        · cases he
        · rw [hscope] at hscope'
          cases hscope'
          exact (setPause_lookup _ _ _).trans (if_pos rfl)
  | answered => exact h.quiet ht (lockGateway_db _ _) nofun nofun
  | enforced => exact h.quiet ht (lockGateway_db _ _) nofun nofun
  | submitted hph =>
      rcases hph with ⟨r, rfl⟩ | ⟨rfl, _⟩
      · exact h.quiet ht rfl nofun nofun
      · exact h.quiet ht rfl nofun nofun
  | rejected | notAdmitted | unlockFailed | started | relocked | relockFailed | halted | recorded | joined | enforcing
  | skipped | left | paperRefused | stopped | gated | paperMarked | paperStarted | paperAnswered =>
      exact h.quiet ht rfl nofun nofun

theorem fresh_ungated (hfresh : ph.fresh = true) : ph.papering = false ∧ ph.gated = none := by
  cases ph with
  | opening _ | submitted _ | locking | pausing _ | connected _ | done _ => exact ⟨rfl, rfl⟩
  | _ => cases hfresh

theorem gated_move (hm : Move cfg free sh ph i sh' ph') (ht : Turn (Phase.inPaper cfg) w ph ph' w')
    (h : Gated cfg sh w) : Gated cfg sh' w' := by
  cases hm with
  | begun _ hfresh =>
      obtain ⟨hp, hg⟩ := fresh_ungated hfresh
      exact h.quiet ht rfl (fun hx => by rw [hp] at hx; cases hx) (fun x hx => by rw [hg] at hx; cases hx)
  | opened hph =>
      rcases hph with ⟨r, rfl⟩ | ⟨rfl, _⟩
      · exact h.quiet ht rfl nofun nofun
      · exact h.quiet ht rfl nofun nofun
  | resolved hph =>
      rcases hph with ⟨r, rfl⟩ | rfl
      · exact h.quiet ht rfl nofun nofun
      · exact h.quiet ht rfl nofun nofun
  | admitted =>
      refine h.quiet ht rfl (fun hp => ?_) (fun x hx => ?_)
      · split at hp <;> cases hp
      · split at hx <;> cases hx
  | settled hph =>
      refine h.quiet ht rfl (fun hp => ?_) (fun x hx => ?_)
      · unfold afterWrite at hp
        split at hp <;> cases hp
      · unfold afterWrite at hx
        split at hx <;> cases hx
  | @suspended r fault readFault now result st db hset =>
      cases hpaper : cfg.paper with
      | true =>
          obtain ⟨_, rfl⟩ := ht.inner hpaper
          constructor
          · intro ph₀ hph₀ hp
            rw [if_pos (show Phase.inPaper cfg (.suspended r result) = true from hpaper)] at hph₀
            cases hph₀
            cases hp
          · intro ph₀ x hph₀ hx
            rw [if_pos (show Phase.inPaper cfg (.suspended r result) = true from hpaper)] at hph₀
            cases hph₀
            cases hx
      | false =>
          -- Without a paper executor there is no paper write the pause could overtake.
          rw [ht.outer hpaper hpaper]
          refine ⟨h.configured, fun ph₀ x hph₀ hx => ?_⟩
          have hc := h.configured ph₀ hph₀ (gated_papering hx)
          rw [hpaper] at hc
          cases hc
  | answered => exact h.quiet ht (lockGateway_db _ _) nofun nofun
  | enforced => exact h.quiet ht (lockGateway_db _ _) nofun nofun
  | submitted hph =>
      rcases hph with ⟨r, rfl⟩ | ⟨rfl, hpaper⟩
      · exact h.quiet ht rfl nofun nofun
      · obtain ⟨_, rfl⟩ := ht.enter rfl rfl
        refine ⟨fun ph₀ hph₀ hp => hpaper, fun ph₀ x hph₀ hx => ?_⟩
        cases hph₀
        cases hx
  | gated hclear =>
      obtain ⟨rfl, rfl⟩ := ht.inner rfl
      refine ⟨fun _ _ _ => h.configured _ rfl rfl, fun ph₀ x hph₀ hx hkind hcontrols => ?_⟩
      cases hph₀
      cases hx
      exact hclear hkind hcontrols
  | paperRefused hph =>
      rcases hph with rfl | rfl
      · exact h.quiet ht rfl (fun _ => rfl) nofun
      · exact h.quiet ht rfl (fun _ => rfl) nofun
  | paperAnswered hph =>
      rcases hph with rfl | rfl
      · exact h.quiet ht rfl (fun _ => rfl) nofun
      · exact h.quiet ht rfl (fun _ => rfl) nofun
  | stopped | paperStarted => exact h.quiet ht rfl (fun _ => rfl) nofun
  | paperMarked => exact h.quiet ht rfl (fun _ => rfl) (fun _ hx => hx)
  | rejected | assessed | notAdmitted | unlocked | unlockFailed | marked | started | relocked | relockFailed | halted
  | recorded | joined | enforcing | skipped | left => exact h.quiet ht rfl nofun nofun

section Runs

variable {s s' u : Sys} {a : Action} {scope : Scope} {env : Environment} {account : Account}
  {ok : Sys → Action → Sys → Prop}

theorem Reachable.cleared (h : Reachable cfg ok s) : Cleared cfg s.shared s.within := by
  refine h.invariant (P := fun s => Cleared cfg s.shared s.within) ?_
    (fun _ _ _ _ _ hu hstepped _ => cleared_move hstepped.move hstepped.jit hu)
  intro db
  constructor
  · intro ph x hnone
    cases hnone
  · intro r b scope hnone
    cases hnone

theorem Reachable.gated (h : Reachable cfg ok s) : Gated cfg s.shared s.withinPaper := by
  refine h.invariant (P := fun s => Gated cfg s.shared s.withinPaper) ?_
    (fun _ _ _ _ _ hu hstepped _ => gated_move hstepped.move hstepped.paper hu)
  intro db
  constructor
  · intro ph hnone
    cases hnone
  · intro ph x hnone
    cases hnone

/-- No SDK write that adds risk starts for an account that a pause covers. -/
theorem suspended_starts_nothing (hcontrols : cfg.controls = true) (h : Reachable cfg ok s)
    (hs : Suspended s.shared.db scope) (hc : covers scope env account) : ¬ StartsRisk s a env account := by
  have hpaused := suspended_covers hs hc
  rintro (⟨w, ⟨t, _, hph⟩, hexposing, rfl, rfl⟩ | ⟨t, w, _, hph, hkind, rfl, rfl⟩)
  · have hholder : s.jit = some t := h.locked.jit.holder_eq (by rw [hph]; rfl)
    have hwithin : s.within = some (.marked w) := by
      rw [Sys.within, hholder, Option.map_some, hph]
    rw [h.cleared.write _ w hwithin rfl hexposing hcontrols] at hpaused
    cases hpaused
  · have hholder : s.paperLock = some t := h.locked.paper.holder_eq (by rw [hph]; rfl)
    have hwithin : s.withinPaper = some (.sending w) := by
      rw [Sys.withinPaper, hholder, Option.map_some, hph]
    rw [h.gated.write _ w hwithin rfl hkind hcontrols] at hpaused
    cases hpaused

/-- The action commits the resumption of a scope. -/
def Resumes (s : Sys) (a : Action) (scope : Scope) : Prop :=
  ∃ t r fault readFault now, a = .thread t (.commit fault readFault now) ∧ s.threads t = .suspending r ∧
    r.paused = false ∧ pauseScope r.environment r.account = .ok scope

/-- Only the commit of a pause call changes the controls. -/
theorem move_db (hm : Move cfg free sh ph i sh' ph') : sh'.db = sh.db ∨
    ∃ r fault readFault now scope, ph = .suspending r ∧ i = .commit fault readFault now ∧
      pauseScope r.environment r.account = .ok scope ∧
      sh'.db = sh.db.setPause ⟨scope.1, scope.2, r.paused, r.operatorId, r.reason, now⟩ := by
  cases hm with
  | @suspended r fault readFault now result st db hset =>
      rcases setPaused_cases hset with ⟨_, rfl⟩ | ⟨scope, hscope, rfl⟩
      · exact .inl rfl
      · exact .inr ⟨r, fault, readFault, now, scope, rfl, rfl, hscope, rfl⟩
  | answered => exact .inl (lockGateway_db _ _)
  | enforced => exact .inl (lockGateway_db _ _)
  | begun | opened | resolved | rejected | assessed | notAdmitted | admitted | unlocked | unlockFailed | marked | started
  | settled | relocked | relockFailed | halted | recorded | joined | enforcing | skipped | left | submitted | paperRefused
  | stopped | gated | paperMarked | paperStarted | paperAnswered => exact .inl rfl

/-- A pause lasts until its own scope is resumed. -/
theorem suspended_step (hl : Locked cfg s) (hstep : step cfg s a = some s') (hno : ¬ Resumes s a scope)
    (hs : Suspended s.shared.db scope) : Suspended s'.shared.db scope := by
  cases a with
  | restart => cases hstep; exact hs
  | thread t i =>
      rcases move_db (thread_stepped hl hstep).move with hdb | ⟨r, fault, readFault, now, scope', hph, hi, hscope', hdb⟩
      · rw [hdb]
        exact hs
      · rw [suspended_iff] at hs ⊢
        rw [hdb, setPause_lookup]
        split
        · next he =>
            cases hpaused : r.paused with
            | true => rfl
            | false => exact absurd ⟨t, r, fault, readFault, now, by rw [hi], hph, hpaused, by rw [hscope', he]; rfl⟩ hno
        · exact hs

theorem suspended_run {as : List Action} (h : Reachable cfg ok s)
    (hrun : Path (step cfg) (fun v a _ => ¬ Resumes v a scope) s as u) (hs : Suspended s.shared.db scope) :
    Suspended u.shared.db scope := by
  have hall : Locked cfg u ∧ Suspended u.shared.db scope := by
    refine hrun.invariant (P := fun v => Locked cfg v ∧ Suspended v.shared.db scope) ⟨h.locked, hs⟩ ?_
    intro v a v' hv hstep hno
    refine ⟨?_, suspended_step hv.1 hstep hno hv.2⟩
    cases a with
    | thread t i => exact (thread_stepped hv.1 hstep).locked
    | restart => cases hstep; exact locked_started cfg _
  exact hall.2

end Runs

/-- No entry that covers what the thread is about to do is paused, or what it does adds no risk. -/
structure Unpaused (sh : Shared) (ph : Phase) : Prop where
  write : ∀ w, ph = .assessing w → w.operation.addsExposure = true → paused sh.db (.real, w.account) = false
  paper : ∀ w, ph = .preparing w → w.kind ≠ .cancel → paused sh.db (.simulate, w.account) = false
  other : ∀ r, ph ≠ .suspending r

/-- The controls as if no pause had ever been made. -/
def Database.withoutPauses (db : Database) : Database := { db with pauses := .empty }

theorem pauseState_eq (st : Store) (db : Database) (fault : Bool) (scope : Scope) :
    pauseState st db fault scope =
      if st.closed || st.failed then (.error blocked, st)
      else if fault then (.error blocked, { st with failed := true })
      else (.ok (paused db scope), st) := by
  unfold pauseState transact
  cases st.closed || st.failed with
  | true => rfl
  | false => cases fault <;> rfl

theorem checkNewRisk_withoutPauses {st : Store} {db : Database} {fault : Bool} {env : Environment} {account : Account}
    (h : paused db (env, account) = false) :
    checkNewRisk st (Database.withoutPauses db) fault env account = checkNewRisk st db fault env account := by
  have hnone : paused (Database.withoutPauses db) (env, account) = false := by
    simp [paused, decisions, Database.withoutPauses]
  unfold checkNewRisk
  rw [pauseState_eq, pauseState_eq, h, hnone]

/-- A write that no pause covers, and one that adds no risk, goes on as if there were no pauses. -/
theorem act_unpaused (h : Unpaused sh ph) :
    (act cfg { sh with db := Database.withoutPauses sh.db } free ph i).map Prod.snd = (act cfg sh free ph i).map Prod.snd := by
  cases ph with
  | assessing w =>
      cases i with
      | check fault =>
          simp only [act, assess]
          cases hexposing : w.operation.addsExposure with
          | false => rfl
          | true =>
              simp only [if_true, checkNewRisk_withoutPauses (h.write w rfl hexposing)]
              split
              · rfl
              · split
                · split <;> rfl
                · rfl
      | _ => rfl
  | preparing w =>
      cases i with
      | check fault =>
          simp only [act, gate]
          by_cases hkind : w.kind = .cancel
          · simp [hkind]
          · simp only [checkNewRisk_withoutPauses (h.paper w rfl hkind)]
            split
            · split <;> rfl
            · rfl
      | proceed failure => cases failure <;> rfl
      | _ => rfl
  | suspending r => exact absurd rfl (h.other r)
  | relocking w result =>
      cases i with
      | reply r unreadable => cases r <;> rfl
      | _ => rfl
  | locking =>
      cases i with
      | reply r unreadable => cases r <;> rfl
      | _ => rfl
  | marked w | sending w =>
      cases i with
      | start refused => cases refused <;> rfl
      | _ => rfl
  | pausing r =>
      cases i with
      | proceed failure => cases failure <;> rfl
      | _ => rfl
  | connected reconnecting =>
      cases i with
      | proceed failure => cases failure <;> cases free <;> rfl
      | _ => rfl
  | idle | done _ | opening _ | queued _ | admitting _ | unlocking _ | dispatching _ | calling _ | failing _ _ _
  | leaving _ _ | recording _ | locked _ | suspended _ _ | enforcing | enforced | submitted _ | marking _
  | requesting _ | closing _ _ => cases i <;> rfl

/-- In every reachable state of a service with trading controls: once a pause call has
returned, no SDK write that adds risk starts for an account it covers unless its scope
was resumed, restarts included; and a thread that no paused entry covers, or that adds no
risk, is not held up by a pause. -/
theorem pause_is_gate (hcontrols : cfg.controls = true) {s : Sys} (h : Reachable cfg Machine.free s) :
    (∀ t r b scope as u, s.threads t = .suspended r (.ok b) → r.paused = true →
      pauseScope r.environment r.account = .ok scope →
      Path (step cfg) (fun v a _ => ¬ Resumes v a scope) s as u →
      ∀ a env account, covers scope env account → ¬ StartsRisk u a env account) ∧
    ∀ t i, Unpaused s.shared (s.threads t) →
      (act cfg { s.shared with db := Database.withoutPauses s.shared.db } s.jit.isNone (s.threads t) i).map Prod.snd =
        (act cfg s.shared s.jit.isNone (s.threads t) i).map Prod.snd := by
  refine ⟨fun t r b scope as u hreturns hpaused hscope hrun a env account hc => ?_, fun t i hu => act_unpaused hu⟩
  have hholder : s.jit = some t := h.locked.jit.holder_eq (by rw [hreturns]; rfl)
  have hwithin : s.within = some (.suspended r (.ok b)) := by
    rw [Sys.within, hholder, Option.map_some, hreturns]
  have hs : Suspended s.shared.db scope := by
    rw [suspended_iff, h.cleared.decision r b scope hwithin hscope, hpaused]
  have hu : Reachable cfg Machine.free u := Reaches.path h (hrun.mono (fun _ _ _ _ _ => trivial))
  exact suspended_starts_nothing hcontrols hu (suspended_run h hrun hs) hc

def samplePause : PauseRequest := ⟨" real", true, "operator", "maintenance", "007"⟩

/-- An order passes its early checks, and only then its account is paused. -/
def pauseBehindCheck : List Action :=
  script 1 [.write ⟨.placeOrder, 7⟩, .proceed none] ++ script 0 [.setPaused samplePause, .proceed none, .commit false false 0]

theorem paused_account_starts_nothing : ∃ s, Machine.run (step operated) initial pauseBehindCheck = some s ∧
    s.threads 1 = .queued ⟨.placeOrder, 7⟩ ∧
    ∀ as u, Path (step operated) (fun v a _ => ¬ Resumes v a (.real, 7)) s as u → ∀ a, ¬ StartsRisk u a .real 7 := by
  have hrun : ∃ s, Machine.run (step operated) initial pauseBehindCheck = some s ∧
      s.threads 1 = .queued ⟨.placeOrder, 7⟩ ∧ s.threads 0 = .suspended samplePause (.ok true) := ⟨_, rfl, rfl, rfl⟩
  obtain ⟨s, hs, hqueued, hreturns⟩ := hrun
  have hreachable : Reachable operated Machine.free s := Reaches.of_run ⟨_, rfl⟩ hs (fun _ _ _ _ _ => trivial)
  refine ⟨s, hs, hqueued, fun as u hpath a => ?_⟩
  exact (pause_is_gate rfl hreachable).1 0 samplePause true (.real, 7) as u hreturns rfl rfl hpath a .real 7 ⟨rfl, .inr rfl⟩

end MoomooMcp.Gateway
