import Mathlib.Tactic.Linarith
import Mathlib.Tactic.NormNum
import MoomooMcp.SupervisorRuns

namespace MoomooMcp.Supervisor

open System Chronicle Machine

variable {c : Config} {s s' : System} {pid : Pid} {child : Child} {code : ExitCode}

theorem nameOf_tracked (h : Inv c s) (hp : s.pids child = some pid) : s.nameOf pid = some child := by
  cases hn : s.nameOf pid with
  | none => exact absurd hp (nameOf_none hn child)
  | some other => exact congrArg some (h.tracked.apart _ _ _ (nameOf_some hn) hp)

theorem not_childless (hp : s.pids child = some pid) : s.childless = false := by
  cases hc : s.childless with
  | false => rfl
  | true =>
      have hnone := childless_none hc child
      rw [hp] at hnone
      cases hnone

theorem step_drain (h : Inv c s) (hc : s.control = .draining code) (hp : s.pids child = some pid) (hz : pid ∈ s.zombies) :
    step c s (.waitpid (.child pid)) = some ((s.collected pid).forget child) := by
  have hwait : s.canWait (.child pid) = true := decide_eq_true hz
  have hname : s.nameOf pid = some child := nameOf_tracked h hp
  have hname : (s.collected pid).nameOf pid = some child := hname
  have hne : (!s.childless && decide (Waited.child pid ≠ .nothing)) = true := by
    rw [not_childless hp]
    rfl
  simp only [step, hwait, if_true, waited, hc, hne, System.collect, hname]

/-- A child that is stopped for good exits and is collected, and the other one is not touched. -/
theorem drain_child (h : Inv c s) (hc : s.control = .draining code) (child : Child) :
    ∃ es t, run (step c) s es = some t ∧ Inv c t ∧ t.control = .draining code ∧ t.pids = Function.update s.pids child none := by
  cases hp : s.pids child with
  | none => exact ⟨[], s, rfl, h, hc, (Function.update_eq_self_iff.mpr hp.symm).symm⟩
  | some pid =>
      rcases h.tracked.kept child pid hp with hrun | hzom
      · obtain ⟨u, hu⟩ : ∃ u, u = ({ s with running := s.running.erase (child, pid), zombies := pid :: s.zombies }.note
            (.exited child)) := ⟨_, rfl⟩
        have hexit : step c s (.exit child pid) = some u := by rw [hu]; exact if_pos hrun
        have hinv : Inv c u := hu ▸ h.exit hrun
        have hcontrol : u.control = .draining code := by rw [hu]; exact hc
        have hpids : u.pids = s.pids := by rw [hu]; rfl
        have hwait := step_drain hinv hcontrol (hpids ▸ hp) (by rw [hu]; exact List.mem_cons_self)
        have hfit : Fits c u (.waitpid (.child pid)) := fun _ _ hr => nomatch hcontrol.symm.trans hr
        refine ⟨[.exit child pid, .waitpid (.child pid)], _, ?_, hinv.step hwait hfit, hcontrol, ?_⟩
        · simp only [run, hexit, hwait, Option.bind_some]
        · show Function.update u.pids child none = _
          rw [hpids]
      · have hwait := step_drain h hc hp hzom
        have hfit : Fits c s (.waitpid (.child pid)) := fun _ _ hr => nomatch hc.symm.trans hr
        exact ⟨[.waitpid (.child pid)], _, by simp only [run, hwait, Option.bind_some], h.step hwait hfit, hc, rfl⟩

theorem drained (h : Inv c s) (hc : s.control = .draining code) :
    ∃ es t, run (step c) s es = some t ∧ t.control = .ended code := by
  obtain ⟨es, t, hrun, ht, htc, htp⟩ := drain_child h hc .gateway
  obtain ⟨es', u, hrun', hu, huc, hup⟩ := drain_child ht htc .server
  have hnone : ∀ child, u.pids child = none := by
    intro child
    rw [hup, htp]
    cases child with
    | gateway =>
        rw [Function.update_of_ne (show Child.gateway ≠ .server from nofun)]
        exact Function.update_self ..
    | server => exact Function.update_self ..
  have hchildless : u.childless = true := by simp [childless, tracked, hnone]
  have hend : step c u .proceed = some { u with control := .ended code } := by
    simp only [step, proceeded, huc, hchildless, if_true]
  refine ⟨es ++ (es' ++ [.proceed]), { u with control := .ended code }, ?_, rfl⟩
  simp only [run_append, hrun, hrun', Option.bind_some, run, hend]

/-- A run that is stopping its children may come to its end, with the code it has. -/
theorem reaches_end (h : Inv c s) (hc : s.control.code = some code) : ∃ es t, run (step c) s es = some t ∧ t.control = .ended code := by
  have hcollect : ∀ u : System, Inv c u → ∀ deadline, u.control = .collecting code deadline →
      ∃ es t, run (step c) u es = some t ∧ t.control = .ended code := by
    intro u hu deadline huc
    obtain ⟨v, hv⟩ : ∃ v : System, v = { u with now := max u.now deadline } := ⟨_, rfl⟩
    have hwait : step c u (.advance (max u.now deadline)) = some v := by rw [hv]; exact if_pos (le_max_left _ _)
    have hvc : v.control = .collecting code deadline := by rw [hv]; exact huc
    have hpassed : (v.childless || decide (deadline ≤ v.now)) = true := by
      have hle : deadline ≤ v.now := by rw [hv]; exact le_max_right _ _
      rw [decide_eq_true hle, Bool.or_true]
    have hproceed : step c v .proceed = some { v with control := .draining code } := by
      simp only [step, proceeded, hvc, hpassed, if_true]
    obtain ⟨es, t, hrun, ht⟩ := drained ((hu.step hwait nofun).step hproceed nofun) rfl
    exact ⟨.advance (max u.now deadline) :: .proceed :: es, t, by simp only [run, hwait, hproceed, Option.bind_some, hrun], ht⟩
  cases hs : s.control with
  | terminating code' =>
      rw [hs] at hc
      cases hc
      have hproceed : step c s .proceed = some { s with control := .collecting code (s.now + c.stopTimeout) } := by
        simp only [step, proceeded, hs]
      obtain ⟨es, t, hrun, ht⟩ := hcollect _ (h.step hproceed nofun) _ rfl
      exact ⟨.proceed :: es, t, by simp only [run, hproceed, Option.bind_some, hrun], ht⟩
  | collecting code' deadline =>
      rw [hs] at hc
      cases hc
      exact hcollect s h deadline hs
  | draining code' =>
      rw [hs] at hc
      cases hc
      exact drained h hs
  | ended code' =>
      rw [hs] at hc
      cases hc
      exact ⟨[], s, rfl, hs⟩
  | _ => rw [hs] at hc; cases hc

/-- The restart policy of a state, and that a run which stops its children can do so. -/
structure Kept (c : Config) (s : System) : Prop where
  policy : Policy c s
  ends : ∀ code, s.control.code = some code → ∃ es t, run (step c) s es = some t ∧ t.control = .ended code

theorem Inv.holds (h : Inv c s) : Kept c s := ⟨h.policy, fun _ => reaches_end h⟩

/-- Where the power of two has no float the exception leaves the server behind. -/
theorem overflow_leaves {e : Event} (h : Inv c s) (hstep : step c s e = some s') (hfit : ¬Fits c s e) :
    s'.control = .crashed ∧ ∃ pid, s'.pids .server = some pid := by
  unfold Fits Answerable at hfit
  push Not at hfit
  obtain ⟨pid, rfl, hc, hp, hroom, hlong⟩ := hfit
  obtain ⟨server, hserver⟩ := Option.ne_none_iff_exists'.mp (h.served (.inr (.inl hc)))
  have hname : s.nameOf pid = some .gateway := nameOf_tracked h hp
  have hname : (s.collected pid).nameOf pid = some .gateway := hname
  obtain ⟨-, hwaited⟩ := Option.ite_none_right_eq_some.mp hstep
  simp only [waited, hc, Option.some.injEq] at hwaited
  subst hwaited
  have hrecent : (((s.collected pid).forget .gateway).note (.reaped .gateway)).recentRestarts c = s.recentRestarts c := rfl
  simp only [System.reap, hname, onGatewayExit, hrecent, if_neg (not_le.mpr hroom), if_pos hlong]
  refine ⟨trivial, server, ?_⟩
  show Function.update s.pids .gateway none .server = some server
  rw [Function.update_of_ne (show Child.server ≠ .gateway by decide)]
  exact hserver

theorem inv_run {es : List Event} (h : run (step c) (initial c) es = some s)
    (hfit : ∀ pre e post u, es = pre ++ e :: post → run (step c) (initial c) pre = some u → Fits c u e) : Inv c s := by
  induction es using List.reverseRecOn generalizing s with
  | nil => cases h; exact inv_initial c
  | append_singleton es e ih =>
      rw [run_append] at h
      obtain ⟨u, hu, hlast⟩ := Option.bind_eq_some_iff.mp h
      obtain ⟨t, ht, hrest⟩ := Option.bind_eq_some_iff.mp hlast
      cases hrest
      have hinv := ih hu (fun pre e' post v hsplit hv => hfit pre e' (post ++ [e]) v (by rw [hsplit]; simp) hv)
      exact hinv.step ht (hfit es e [] u rfl hu)

/-- A limit and a window that admit more restarts than a power of two may count. -/
def patient : Config := { maxGatewayRestarts := 2000, gatewayRestartWindow := 100000 }

/-- The gateway is up for the next time, half a minute after each of its exits. -/
structure Cycled (k : ℕ) (s : System) : Prop where
  control : s.control = .idle
  now : s.now = 30 * k
  gateway : s.pids .gateway = some 1
  server : s.pids .server = some 2
  restarts : s.gatewayRestarts = (List.range k).map (fun i : ℕ => (30 * i : ℚ))
  calm : s.stopSignal = none
  running : (Child.gateway, 1) ∈ s.running
  rest : s.running.erase (.gateway, 1) = [(.server, 2)]
  zombies : s.zombies = []

theorem Cycled.recent {k : ℕ} (h : Cycled k s) (hk : k ≤ 1024) : s.recentRestarts patient = s.gatewayRestarts := by
  unfold recentRestarts
  rw [List.filter_eq_self, h.restarts, h.now]
  intro t ht
  obtain ⟨i, -, rfl⟩ := List.mem_map.mp ht
  have hle : (k : ℚ) ≤ 1024 := by exact_mod_cast hk
  have hpos : (0 : ℚ) ≤ i := Nat.cast_nonneg i
  exact decide_eq_true (by show 30 * (k : ℚ) - 30 * i < 100000; linarith)

/-- What is left of a cycle once the gateway has exited and was collected. -/
structure Down (k : ℕ) (u : System) : Prop where
  control : u.control = .reaping
  now : u.now = 30 * k
  server : u.pids .server = some 2
  restarts : u.gatewayRestarts = (List.range k).map (fun i : ℕ => (30 * i : ℚ))
  calm : u.stopSignal = none
  running : u.running = [(.server, 2)]
  zombies : u.zombies = []
  recent : u.recentRestarts patient = u.gatewayRestarts

/-- The gateway exits and the next tick collects it. -/
theorem Cycled.exits {k : ℕ} (h : Cycled k s) (hk : k ≤ 1024) :
    ∃ u, run (step patient) s [.exit .gateway 1, .tick, .waitpid (.child 1)] = some (u.onGatewayExit patient) ∧ Down k u := by
  obtain ⟨a, ha⟩ : ∃ a, a = ({ s with running := s.running.erase (.gateway, 1), zombies := 1 :: s.zombies }.note
    (.exited .gateway)) := ⟨_, rfl⟩
  obtain ⟨b, hb⟩ : ∃ b, b = { a.note .ticked with control := .reaping } := ⟨_, rfl⟩
  have hexit : step patient s (.exit .gateway 1) = some a := by rw [ha]; exact if_pos h.running
  have htick : step patient a .tick = some b := by
    have hidle : a.control = .idle := by rw [ha]; exact h.control
    have hcalm : a.stopSignal = none := by rw [ha]; exact h.calm
    simp only [step, hidle, if_true, hcalm, Option.isSome_none, Bool.false_eq_true, if_false, hb]
  have hzombies : b.zombies = [1] := by rw [hb, ha]; exact congrArg (1 :: ·) h.zombies
  have hname : (b.collected 1).nameOf 1 = some .gateway := by
    rw [hb, ha]
    exact if_pos h.gateway
  have hreap : step patient b (.waitpid (.child 1)) =
      some ((((b.collected 1).forget .gateway).note (.reaped .gateway)).onGatewayExit patient) := by
    have hreaping : b.control = .reaping := by rw [hb]
    have hwait : b.canWait (.child 1) = true := by rw [canWait, hzombies]; rfl
    simp only [step, hwait, if_true, waited, hreaping, System.reap, hname]
  refine ⟨((b.collected 1).forget .gateway).note (.reaped .gateway), ?_, ?_⟩
  · simp only [run, hexit, htick, hreap, Option.bind_some]
  · rw [hb, ha]
    refine ⟨rfl, h.now, ?_, h.restarts, h.calm, h.rest, ?_, h.recent hk⟩
    · show Function.update s.pids .gateway none .server = some 2
      rw [Function.update_of_ne (show Child.server ≠ .gateway by decide)]
      exact h.server
    · show (1 :: s.zombies).erase 1 = []
      rw [h.zombies]
      rfl

theorem delay_le (k : ℕ) : 0 < delay patient k ∧ delay patient k ≤ 30 := by
  constructor
  · have hpow : (0 : ℚ) < 1 * 2 ^ k := by positivity
    exact lt_min hpow (by decide +kernel)
  · exact min_le_right _ _

/-- It is restarted as long as the power of two has a float. -/
theorem Down.restarts_again {k : ℕ} {u : System} (h : Down k u) (hk : k < 1024) :
    ∃ es t, run (step patient) (u.onGatewayExit patient) es = some t ∧ Cycled (k + 1) t := by
  obtain ⟨hpos, hle⟩ := delay_le k
  have hlength : u.gatewayRestarts.length = k := by rw [h.restarts, List.length_map, List.length_range]
  obtain ⟨due, hdue⟩ : ∃ due, due = u.now + delay patient k := ⟨_, rfl⟩
  obtain ⟨a, ha⟩ : ∃ a, a = ({ u with gatewayRestarts := u.gatewayRestarts ++ [u.now], gatewayRestartDue := some due }).note
    (.answered u.now due) := ⟨_, rfl⟩
  have hanswer : u.onGatewayExit patient = a := by
    have hlimit : ¬patient.maxGatewayRestarts ≤ k := not_le.mpr (lt_trans hk (by decide))
    simp only [onGatewayExit, h.recent, hlength, if_neg hlimit, if_neg (not_le.mpr hk), ha, hdue]
  obtain ⟨b, hb⟩ : ∃ b, b = { a with control := .restarting }.note .passed := ⟨_, rfl⟩
  obtain ⟨d, hd⟩ : ∃ d : System, d = { b with control := .idle } := ⟨_, rfl⟩
  obtain ⟨e, he⟩ : ∃ e : System, e = { d with now := 30 * (k + 1 : ℕ) } := ⟨_, rfl⟩
  obtain ⟨f, hf⟩ : ∃ f, f = { e.note .ticked with control := .reaping } := ⟨_, rfl⟩
  obtain ⟨g, hg⟩ : ∃ g, g = { f with control := .restarting }.note .passed := ⟨_, rfl⟩
  have hnow : b.now = 30 * k := by rw [hb, ha]; exact h.now
  have hpass : step patient a (.waitpid .nothing) = some b := by
    have hreaping : a.control = .reaping := by rw [ha]; exact h.control
    have hwait : a.canWait .nothing = true := by rw [ha]; exact List.isEmpty_iff.mpr h.zombies
    simp only [step, hwait, if_true, waited, hreaping, hb]
  have hrest : step patient b .proceed = some d := by
    have hrestarting : b.control = .restarting := by rw [hb]; rfl
    have hearly : b.restartDue patient = false := by
      have hlate : ¬due ≤ b.now := by rw [hnow, hdue, h.now]; linarith
      have hsome : b.gatewayRestartDue = some due := by rw [hb, ha]; rfl
      rw [restartDue, hsome, Option.any_some, decide_eq_false hlate, Bool.and_false]
    simp only [step, proceeded, hrestarting, hearly, Bool.false_eq_true, if_false, hd]
  have hwait : step patient d (.advance (30 * (k + 1 : ℕ))) = some e := by
    have hle : d.now ≤ 30 * (k + 1 : ℕ) := by
      have hsame : d.now = 30 * k := by rw [hd]; exact hnow
      rw [hsame]
      push_cast
      linarith
    rw [he]
    exact if_pos hle
  have htick : step patient e .tick = some f := by
    have hidle : e.control = .idle := by rw [he, hd]
    have hcalm : e.stopSignal = none := by rw [he, hd, hb, ha]; exact h.calm
    simp only [step, hidle, if_true, hcalm, Option.isSome_none, Bool.false_eq_true, if_false, hf]
  have hpass' : step patient f (.waitpid .nothing) = some g := by
    have hreaping : f.control = .reaping := by rw [hf]
    have hwait : f.canWait .nothing = true := by rw [hf, he, hd, hb, ha]; exact List.isEmpty_iff.mpr h.zombies
    simp only [step, hwait, if_true, waited, hreaping, hg]
  have hfork : step patient g (.fork 1) = some { ({ g with gatewayRestartDue := none }).spawn .gateway 1 with
      control := .idle } := by
    have hrestarting : g.control = .restarting := by rw [hg]; rfl
    have hfresh : g.fresh 1 = true := by
      rw [fresh_iff, hg, hf, he, hd, hb, ha]
      refine ⟨fun hmem => ?_, fun r hr => ?_⟩
      · rw [show _ = [] from h.zombies] at hmem
        cases hmem
      · rw [show _ = [(Child.server, 2)] from h.running] at hr
        rw [List.mem_singleton.mp hr]
        decide
    have hlate : g.restartDue patient = true := by
      have hsome : g.gatewayRestartDue = some due := by rw [hg, hf, he, hd, hb, ha]; rfl
      have hle : due ≤ g.now := by
        rw [hg, hf, he]
        show due ≤ 30 * (k + 1 : ℕ)
        rw [hdue, h.now]
        push_cast
        linarith
      rw [restartDue, hsome, Option.any_some, decide_eq_true hle]
      rfl
    simp only [step, hfresh, if_true, forked, hrestarting, hlate]
  refine ⟨[.waitpid .nothing, .proceed, .advance (30 * (k + 1 : ℕ)), .tick, .waitpid .nothing, .fork 1],
    { ({ g with gatewayRestartDue := none }).spawn .gateway 1 with control := .idle }, ?_, ?_⟩
  · simp only [hanswer, run, hpass, hrest, hwait, htick, hpass', hfork, Option.bind_some]
  · rw [hg, hf, he, hd, hb, ha]
    refine ⟨rfl, rfl, ?_, ?_, ?_, h.calm, List.mem_cons_self, ?_, h.zombies⟩
    · show Function.update u.pids .gateway (some 1) .gateway = some 1
      exact Function.update_self ..
    · show Function.update u.pids .gateway (some 1) .server = some 2
      rw [Function.update_of_ne (show Child.server ≠ .gateway by decide)]
      exact h.server
    · show u.gatewayRestarts ++ [u.now] = _
      rw [h.restarts, h.now, List.range_succ, List.map_append]
      rfl
    · show ((Child.gateway, 1) :: u.running).erase (.gateway, 1) = _
      rw [h.running]
      rfl

theorem cycled (k : ℕ) (hk : k ≤ 1024) : ∃ es s, run (step patient) (initial patient) es = some s ∧ Cycled k s := by
  induction k with
  | zero =>
      refine ⟨[.fork 1, .fork 2], _, rfl, ?_⟩
      have hnow : (0 : ℚ) = 30 * (0 : ℕ) := by norm_num
      exact ⟨rfl, hnow, rfl, rfl, rfl, rfl, by decide, by decide, rfl⟩
  | succ k ih =>
      obtain ⟨es, s, hrun, hs⟩ := ih (by omega)
      obtain ⟨u, hu, hdown⟩ := hs.exits (by omega)
      obtain ⟨es', t, ht, hcycled⟩ := hdown.restarts_again (by omega)
      refine ⟨es ++ ([.exit .gateway 1, .tick, .waitpid (.child 1)] ++ es'), t, ?_, hcycled⟩
      rw [run_append, hrun, Option.bind_some, run_append, hu, Option.bind_some, ht]

end MoomooMcp.Supervisor
