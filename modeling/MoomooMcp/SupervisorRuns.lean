import MoomooMcp.Chronicle
import MoomooMcp.Supervisor

namespace MoomooMcp.Supervisor

open System Chronicle

/-- The exit code of a run that is stopping or has stopped. -/
def Control.code : Control → Option ExitCode
  | .terminating code | .collecting code _ | .draining code | .ended code => some code
  | _ => none

variable {c : Config} {s s' : System} {pid : Pid}

/-- What a step can do, by name. -/
inductive Moved (c : Config) (s : System) : Event → System → Prop
  | advance {t : ℚ} (ht : s.now ≤ t) : Moved c s (.advance t) { s with now := t }
  | exit {child : Child} {pid : Pid} (hr : (child, pid) ∈ s.running) :
      Moved c s (.exit child pid) ({ s with running := s.running.erase (child, pid), zombies := pid :: s.zombies }.note (.exited child))
  | orphan {pid : Pid} (hf : s.fresh pid = true) : Moved c s (.orphan pid) { s with zombies := pid :: s.zombies }
  | signal (signum : ℕ) : Moved c s (.signal signum) ({ s with stopSignal := some signum }.note .signalled)
  | stop (hc : s.control = .idle) (hs : s.stopSignal.isSome = true) : Moved c s .tick ((s.note .ticked).shutdown .ok)
  | tick (hc : s.control = .idle) (hs : s.stopSignal.isSome = false) :
      Moved c s .tick { s.note .ticked with control := .reaping }
  | startGateway {pid : Pid} (hc : s.control = .startGateway) (hf : s.fresh pid = true) :
      Moved c s (.fork pid) { s.spawn .gateway pid with control := .startServer }
  | startServer {pid : Pid} (hc : s.control = .startServer) (hf : s.fresh pid = true) :
      Moved c s (.fork pid) { s.spawn .server pid with control := .idle }
  | restart {pid : Pid} {due : ℚ} (hc : s.control = .restarting) (hf : s.fresh pid = true)
      (hd : s.gatewayRestartDue = some due) (hle : due ≤ s.now) :
      Moved c s (.fork pid) { ({ s with gatewayRestartDue := none }).spawn .gateway pid with control := .idle }
  | stray {pid : Pid} (hc : s.control = .reaping) (hz : pid ∈ s.zombies) (hn : s.nameOf pid = none) :
      Moved c s (.waitpid (.child pid)) (s.collected pid)
  | server {pid : Pid} (hc : s.control = .reaping) (hz : pid ∈ s.zombies) (hn : s.nameOf pid = some .server) :
      Moved c s (.waitpid (.child pid)) ((((s.collected pid).forget .server).note (.reaped .server)).shutdown .serverExited)
  | gateway {pid : Pid} (hc : s.control = .reaping) (hz : pid ∈ s.zombies) (hn : s.nameOf pid = some .gateway) :
      Moved c s (.waitpid (.child pid)) ((((s.collected pid).forget .gateway).note (.reaped .gateway)).onGatewayExit c)
  | passed {w : Waited} (hc : s.control = .reaping) (hz : s.zombies = []) : Moved c s (.waitpid w) ({ s with control := .restarting }.note .passed)
  | collect {w : Waited} (hc : s.control.code ≠ none) (hw : s.canWait w = true) (hp : s.childless = false) :
      Moved c s (.waitpid w) (s.collect w)
  | rest (hc : s.control = .restarting) : Moved c s .proceed { s with control := .idle }
  | finish {control : Control} (hc : s.control.code ≠ none) (hsame : control.code = s.control.code)
      (hend : ∀ code, control = .ended code → s.childless = true) : Moved c s .proceed { s with control := control }

theorem canWait_empty {w : Waited} (h : s.canWait w = true) : (∃ pid, w = .child pid ∧ pid ∈ s.zombies) ∨ s.zombies = [] := by
  cases w with
  | child pid => exact .inl ⟨pid, rfl, of_decide_eq_true h⟩
  | nothing => exact .inr (List.isEmpty_iff.mp h)
  | noChildren => exact .inr (List.isEmpty_iff.mp (Bool.and_eq_true_iff.mp h).1)

theorem forked_moved (hf : s.fresh pid = true) (h : forked c s pid = some s') : Moved c s (.fork pid) s' := by
  unfold forked at h
  split at h
  · next hc => cases h; exact .startGateway hc hf
  · next hc => cases h; exact .startServer hc hf
  · next hc =>
      split at h
      · next hd =>
          cases h
          obtain ⟨-, hany⟩ := Bool.and_eq_true_iff.mp hd
          obtain ⟨due, hdue, hle⟩ := (Option.any_eq_true _ _).mp hany
          exact .restart hc hf hdue (of_decide_eq_true hle)
      · cases h
  · cases h

theorem reap_moved (hc : s.control = .reaping) (hz : pid ∈ s.zombies) : Moved c s (.waitpid (.child pid)) (s.reap c pid) := by
  have hname : (s.collected pid).nameOf pid = s.nameOf pid := rfl
  unfold reap
  dsimp only
  rw [hname]
  split
  · next hn => exact .stray hc hz hn
  · next hn => exact .server hc hz hn
  · next hn => exact .gateway hc hz hn

theorem waited_moved {w : Waited} (hw : s.canWait w = true) (h : waited c s w = some s') : Moved c s (.waitpid w) s' := by
  unfold waited at h
  split at h
  · next hc =>
      rcases canWait_empty hw with ⟨pid, rfl, hz⟩ | hz
      · cases h
        exact reap_moved hc hz
      · cases w with
        | child pid =>
            have hmem : pid ∈ s.zombies := of_decide_eq_true hw
            rw [hz] at hmem
            cases hmem
        | nothing | noChildren => cases h; exact .passed hc hz
  · next hc =>
      split at h
      · next hp =>
          cases h
          exact .collect (by rw [hc]; exact nofun) hw (Bool.not_eq_true' _ ▸ (Bool.and_eq_true_iff.mp hp).1)
      · cases h
  · next hc =>
      split at h
      · next hp =>
          cases h
          exact .collect (by rw [hc]; exact nofun) hw (Bool.not_eq_true' _ ▸ (Bool.and_eq_true_iff.mp hp).1)
      · cases h
  · cases h

theorem proceeded_moved (h : proceeded c s = some s') : Moved c s .proceed s' := by
  unfold proceeded at h
  split at h
  · next hc =>
      split at h
      · cases h
      · cases h; exact .rest hc
  · next code hc => cases h; exact .finish (by rw [hc]; exact nofun) (by rw [hc]; rfl) nofun
  · next code deadline hc =>
      split at h
      · cases h; exact .finish (by rw [hc]; exact nofun) (by rw [hc]; rfl) nofun
      · cases h
  · next code hc =>
      split at h
      · next hp => cases h; exact .finish (by rw [hc]; exact nofun) (by rw [hc]; rfl) (fun _ _ => hp)
      · cases h
  · cases h

theorem step_moved {e : Event} (h : step c s e = some s') : Moved c s e s' := by
  cases e with
  | advance t =>
      obtain ⟨ht, h⟩ := Option.ite_none_right_eq_some.mp h
      cases h
      exact .advance ht
  | exit child pid =>
      obtain ⟨hr, h⟩ := Option.ite_none_right_eq_some.mp h
      cases h
      exact .exit hr
  | orphan pid =>
      obtain ⟨hf, h⟩ := Option.ite_none_right_eq_some.mp h
      cases h
      exact .orphan hf
  | signal signum => cases h; exact .signal signum
  | tick =>
      obtain ⟨hc, h⟩ := Option.ite_none_right_eq_some.mp h
      split at h
      · next hs => cases h; exact .stop hc hs
      · next hs => cases h; exact .tick hc (Bool.not_eq_true _ ▸ hs)
  | fork pid =>
      obtain ⟨hf, h⟩ := Option.ite_none_right_eq_some.mp h
      exact forked_moved hf h
  | waitpid w =>
      obtain ⟨hw, h⟩ := Option.ite_none_right_eq_some.mp h
      exact waited_moved hw h
  | proceed => exact proceeded_moved h

/-- The supervisor's table of children against the kernel's processes. -/
structure Tracked (pids : Child → Option Pid) (running : List (Child × Pid)) (zombies : List Pid) : Prop where
  known : ∀ child pid, (child, pid) ∈ running → pids child = some pid
  once : running.Nodup
  kept : ∀ child pid, pids child = some pid → (child, pid) ∈ running ∨ pid ∈ zombies
  dead : ∀ child pid, pid ∈ zombies → (child, pid) ∉ running
  apart : ∀ child child' pid, pids child = some pid → pids child' = some pid → child = child'

section

variable {pids : Child → Option Pid} {running : List (Child × Pid)} {zombies : List Pid} {child : Child}

theorem Tracked.initial : Tracked (fun _ => none) [] [] :=
  ⟨nofun, List.nodup_nil, nofun, nofun, nofun⟩

theorem Tracked.spawn (h : Tracked pids running zombies) (hnone : pids child = none) (hz : pid ∉ zombies)
    (hr : ∀ r ∈ running, r.2 ≠ pid) : Tracked (Function.update pids child (some pid)) ((child, pid) :: running) zombies := by
  have hfree : ∀ child', pids child' ≠ some pid := by
    intro child' hp
    rcases h.kept child' pid hp with hrun | hzom
    · exact hr _ hrun rfl
    · exact hz hzom
  constructor
  · intro child' pid' hmem
    by_cases hc : child' = child
    · subst hc
      rcases List.mem_cons.mp hmem with he | hmem
      · cases he; exact Function.update_self ..
      · have hp := h.known _ _ hmem
        rw [hnone] at hp
        cases hp
    · rcases List.mem_cons.mp hmem with he | hmem
      · cases he; exact absurd rfl hc
      · rw [Function.update_of_ne hc]
        exact h.known _ _ hmem
  · exact List.nodup_cons.mpr ⟨fun hmem => hr _ hmem rfl, h.once⟩
  · intro child' pid' hp
    by_cases hc : child' = child
    · subst hc
      rw [Function.update_self] at hp
      cases hp
      exact .inl List.mem_cons_self
    · rw [Function.update_of_ne hc] at hp
      exact (h.kept _ _ hp).imp (List.mem_cons_of_mem _) id
  · intro child' pid' hzom hmem
    rcases List.mem_cons.mp hmem with he | hmem
    · cases he; exact hz hzom
    · exact h.dead _ _ hzom hmem
  · intro a b pid' ha hb
    by_cases hca : a = child <;> by_cases hcb : b = child
    · exact hca.trans hcb.symm
    · subst hca
      rw [Function.update_self] at ha
      rw [Function.update_of_ne hcb] at hb
      cases ha
      exact absurd hb (hfree b)
    · subst hcb
      rw [Function.update_self] at hb
      rw [Function.update_of_ne hca] at ha
      cases hb
      exact absurd ha (hfree a)
    · rw [Function.update_of_ne hca] at ha
      rw [Function.update_of_ne hcb] at hb
      exact h.apart a b pid' ha hb

theorem Tracked.exit (h : Tracked pids running zombies) (hr : (child, pid) ∈ running) :
    Tracked pids (running.erase (child, pid)) (pid :: zombies) := by
  have hgone : ∀ child', (child', pid) ∉ running.erase (child, pid) := by
    intro child' hmem
    have hsame := h.apart child' child pid (h.known _ _ (List.mem_of_mem_erase hmem)) (h.known _ _ hr)
    subst hsame
    exact h.once.not_mem_erase hmem
  refine ⟨fun child' pid' hmem => h.known _ _ (List.mem_of_mem_erase hmem), h.once.erase _, ?_, ?_, h.apart⟩
  · intro child' pid' hp
    rcases h.kept _ _ hp with hrun | hzom
    · by_cases he : (child', pid') = (child, pid)
      · cases he; exact .inr List.mem_cons_self
      · exact .inl ((List.mem_erase_of_ne he).mpr hrun)
    · exact .inr (List.mem_cons_of_mem _ hzom)
  · intro child' pid' hzom hmem
    rcases List.mem_cons.mp hzom with rfl | hzom
    · exact hgone child' hmem
    · exact h.dead _ _ hzom (List.mem_of_mem_erase hmem)

theorem Tracked.orphan (h : Tracked pids running zombies) (hr : ∀ r ∈ running, r.2 ≠ pid) :
    Tracked pids running (pid :: zombies) := by
  refine ⟨h.known, h.once, fun _ _ hp => (h.kept _ _ hp).imp id (List.mem_cons_of_mem _), ?_, h.apart⟩
  intro child' pid' hzom hmem
  rcases List.mem_cons.mp hzom with rfl | hzom
  · exact hr _ hmem rfl
  · exact h.dead _ _ hzom hmem

/-- Collecting an orphan leaves what is known of the children. -/
theorem Tracked.stray (h : Tracked pids running zombies) (hn : ∀ child, pids child ≠ some pid) :
    Tracked pids running (zombies.erase pid) := by
  refine ⟨h.known, h.once, ?_, fun _ _ hzom => h.dead _ _ (List.mem_of_mem_erase hzom), h.apart⟩
  intro child' pid' hp
  have hne : pid' ≠ pid := fun he => hn child' (he ▸ hp)
  exact (h.kept _ _ hp).imp id (fun hzom => (List.mem_erase_of_ne hne).mpr hzom)

theorem Tracked.forget (h : Tracked pids running zombies) (hz : pid ∈ zombies) (hp : pids child = some pid) :
    Tracked (Function.update pids child none) running (zombies.erase pid) := by
  have hother : ∀ child' pid', Function.update pids child none child' = some pid' → child' ≠ child ∧ pids child' = some pid' := by
    intro child' pid' hp'
    by_cases hc : child' = child
    · subst hc
      rw [Function.update_self] at hp'
      cases hp'
    · rw [Function.update_of_ne hc] at hp'
      exact ⟨hc, hp'⟩
  refine ⟨?_, h.once, ?_, fun _ _ hzom => h.dead _ _ (List.mem_of_mem_erase hzom), ?_⟩
  · intro child' pid' hmem
    have hc : child' ≠ child := by
      intro hc
      subst hc
      have hsame := h.known _ _ hmem
      rw [hp] at hsame
      cases hsame
      exact h.dead _ _ hz hmem
    rw [Function.update_of_ne hc]
    exact h.known _ _ hmem
  · intro child' pid' hp'
    obtain ⟨hc, hp'⟩ := hother child' pid' hp'
    have hne : pid' ≠ pid := fun he => hc (h.apart _ _ _ (he ▸ hp') hp)
    exact (h.kept _ _ hp').imp id (fun hzom => (List.mem_erase_of_ne hne).mpr hzom)
  · exact fun a b pid' ha hb => h.apart a b pid' (hother a pid' ha).2 (hother b pid' hb).2

end

theorem nameOf_none (h : s.nameOf pid = none) (child : Child) : s.pids child ≠ some pid := by
  unfold nameOf at h
  cases child with
  | gateway => exact fun hp => by rw [if_pos hp] at h; cases h
  | server =>
      intro hp
      rw [if_pos hp] at h
      split at h <;> cases h

theorem nameOf_some {child : Child} (h : s.nameOf pid = some child) : s.pids child = some pid := by
  unfold nameOf at h
  split at h
  · next hp => cases h; exact hp
  · split at h
    · next hp => cases h; exact hp
    · cases h

theorem childless_none (h : s.childless = true) (child : Child) : s.pids child = none := by
  unfold childless at h
  have hboth := Bool.and_eq_true_iff.mp h
  cases child with
  | gateway => exact Option.not_isSome_iff_eq_none.mp (fun hs => by simp [tracked, hs] at hboth)
  | server => exact Option.not_isSome_iff_eq_none.mp (fun hs => by simp [tracked, hs] at hboth)

theorem fresh_iff : s.fresh pid = true ↔ pid ∉ s.zombies ∧ ∀ r ∈ s.running, r.2 ≠ pid := by
  simp [fresh]

def Entry.answer : Entry → Option ℚ
  | .answered time _ => some time
  | _ => none

/-- The gateway exits that are answered by a restart. -/
def answers (log : List Entry) : List ℚ := log.filterMap Entry.answer

/-- How many restarts lie in the window that ends at a time. -/
def restartsAt (c : Config) (t : ℚ) (log : List Entry) : ℕ := (inWindow c.gatewayRestartWindow t (answers log)).length

/-- A restart is scheduled for `due`, and the gateway was not started since. -/
def Pending (log : List Entry) (due : ℚ) : Prop :=
  ∃ before after time, log = before ++ .answered time due :: after ∧ ∀ t, Entry.started .gateway t ∉ after

/-- What an entry requires of those before it. -/
def Judged (c : Config) (before : List Entry) : Entry → Prop
  | .started child t => (∀ code, .finishing code ∉ before) ∧
      (child = .gateway → (∀ t', Entry.started .gateway t' ∉ before) ∨ ∃ due, Pending before due ∧ due ≤ t)
  | .answered t due => restartsAt c t before < c.maxGatewayRestarts ∧ due = t + delay c (restartsAt c t before)
  | .gaveUp t => c.maxGatewayRestarts ≤ restartsAt c t before
  | .passed => .exited .server ∉ before
  | _ => True

def Entry.settles : Entry → Bool
  | .answered _ _ | .gaveUp _ => true
  | _ => false

/-- The exit code that an entry decides on. -/
def Entry.verdict : Entry → Option ExitCode
  | .gaveUp _ => some .gatewayUnrecoverable
  | .reaped .server => some .serverExited
  | .finishing code => some code
  | _ => none

def Control.isOver : Control → Bool
  | .ended _ | .crashed => true
  | _ => false

/-- The restart policy, as what holds in a state of a run. -/
structure Policy (c : Config) (s : System) : Prop where
  single : ∀ child, (s.running.filter (fun r => r.1 = child)).length ≤ 1
  window : ∀ t, restartsAt c t s.log ≤ c.maxGatewayRestarts
  judged : Ever (Judged c) s.log
  accounted : s.log.countP (· = .reaped .gateway) = s.log.countP Entry.settles
  verdict : ∀ e ∈ s.log, ∀ code, e.verdict = some code → s.control.code = some code
  stopped : ∀ before after, s.log = before ++ .ticked :: after → .signalled ∈ before → s.control.code = some .ok
  atEnd : s.control.isOver = true → (∀ child, s.pids child = none) ∧ s.running = []

section

variable {now t d : ℚ} {restarts : List ℚ} {log : List Entry} {e : Entry}

theorem answers_append (log log' : List Entry) : answers (log ++ log') = answers log ++ answers log' :=
  List.filterMap_append ..

/-- The times that the supervisor keeps are those of the answered exits, as far as
a window may still hold them. -/
structure Counted (c : Config) (now : ℚ) (restarts : List ℚ) (log : List Entry) : Prop where
  past : ∀ u ∈ answers log, u ≤ now
  kept : ∀ t, now ≤ t → recent c.gatewayRestartWindow t restarts = recent c.gatewayRestartWindow t (answers log)
  window : ∀ t, restartsAt c t log ≤ c.maxGatewayRestarts

theorem Counted.initial (c : Config) : Counted c 0 [] [] := ⟨nofun, fun _ _ => rfl, fun _ => Nat.zero_le _⟩

theorem Counted.later (h : Counted c now restarts log) (ht : now ≤ t) : Counted c t restarts log :=
  ⟨fun u hu => (h.past u hu).trans ht, fun u hu => h.kept u (ht.trans hu), h.window⟩

theorem Counted.note (h : Counted c now restarts log) (he : e.answer = none) : Counted c now restarts (log ++ [e]) := by
  have hsame : answers (log ++ [e]) = answers log := by
    rw [answers_append, answers, answers, List.filterMap_cons_none he, List.filterMap_nil, List.append_nil]
  refine ⟨fun u hu => h.past u (hsame ▸ hu), fun t ht => by rw [hsame]; exact h.kept t ht, fun t => ?_⟩
  rw [restartsAt, hsame]
  exact h.window t

theorem Counted.prune (h : Counted c now restarts log) :
    Counted c now (recent c.gatewayRestartWindow now restarts) log :=
  ⟨h.past, fun t ht => (recent_recent ht).trans (h.kept t ht), h.window⟩

/-- The length that the supervisor compares with its limit. -/
theorem Counted.restartsAt_now (h : Counted c now restarts log) :
    restartsAt c now log = (recent c.gatewayRestartWindow now restarts).length := by
  rw [restartsAt, inWindow_eq_recent h.past, h.kept now le_rfl]

theorem Counted.answer (h : Counted c now restarts log) (hroom : restartsAt c now log < c.maxGatewayRestarts) (due : ℚ) :
    Counted c now (recent c.gatewayRestartWindow now restarts ++ [now]) (log ++ [.answered now due]) := by
  have hsame : answers (log ++ [.answered now due]) = answers log ++ [now] := answers_append _ _
  refine ⟨?_, ?_, ?_⟩
  · intro u hu
    rw [hsame] at hu
    rcases List.mem_append.mp hu with hu | hu
    · exact h.past u hu
    · exact (List.mem_singleton.mp hu).le
  · intro t ht
    rw [hsame, recent_append, recent_append, recent_recent ht, h.kept t ht]
  · intro t
    rw [restartsAt, hsame]
    exact inWindow_snoc h.past hroom h.window t

theorem Pending.note (h : Pending log d) (he : ∀ t, e ≠ .started .gateway t) : Pending (log ++ [e]) d := by
  obtain ⟨before, after, time, rfl, hnone⟩ := h
  refine ⟨before, after ++ [e], time, by simp, fun t hmem => ?_⟩
  rcases List.mem_append.mp hmem with hmem | hmem
  · exact hnone t hmem
  · exact he t (List.mem_singleton.mp hmem).symm

end

/-- What every state of a run keeps, beyond the policy. -/
structure Inv (c : Config) (s : System) : Prop where
  tracked : Tracked s.pids s.running s.zombies
  counted : Counted c s.now s.gatewayRestarts s.log
  judged : Ever (Judged c) s.log
  accounted : s.log.countP (· = .reaped .gateway) = s.log.countP Entry.settles
  verdict : ∀ e ∈ s.log, ∀ code, e.verdict = some code → s.control.code = some code
  stopped : ∀ before after, s.log = before ++ .ticked :: after → .signalled ∈ before → s.control.code = some .ok
  signalled : .signalled ∈ s.log → s.stopSignal.isSome = true
  pending : ∀ due, s.gatewayRestartDue = some due → Pending s.log due ∧ s.pids .gateway = none
  gone : .exited .server ∈ s.log → ∀ pid, (.server, pid) ∉ s.running
  starting : s.control = .startGateway ∨ s.control = .startServer →
    s.pids .server = none ∧ s.gatewayRestartDue = none ∧ .exited .server ∉ s.log
  unstarted : s.control = .startGateway → s.pids .gateway = none ∧ ∀ t, Entry.started .gateway t ∉ s.log
  served : s.control = .idle ∨ s.control = .reaping ∨ s.control = .restarting → s.pids .server ≠ none
  atEnd : (∃ code, s.control = .ended code) → ∀ child, s.pids child = none
  alive : s.control ≠ .crashed

theorem inv_initial (c : Config) : Inv c (initial c) := by
  have hstart : (initial c).control = .startGateway ∨ (initial c).control = .startServer := by
    unfold initial
    cases c.gateway with
    | true => exact .inl rfl
    | false => exact .inr rfl
  have hbusy : ∀ control, control ≠ .startGateway → control ≠ .startServer → (initial c).control ≠ control := by
    intro control hg hs he
    rcases hstart with h | h
    · exact hg (h ▸ he).symm
    · exact hs (h ▸ he).symm
  constructor
  · exact Tracked.initial
  · exact Counted.initial c
  · exact ever_nil
  · rfl
  · exact nofun
  · intro before after hsplit
    simp [initial] at hsplit
  · exact nofun
  · exact nofun
  · exact nofun
  · exact fun _ => ⟨rfl, rfl, nofun⟩
  · exact fun _ => ⟨rfl, nofun⟩
  · rintro (h | h | h)
    · exact absurd h (hbusy _ nofun nofun)
    · exact absurd h (hbusy _ nofun nofun)
    · exact absurd h (hbusy _ nofun nofun)
  · exact fun ⟨_, he⟩ => absurd he (hbusy _ nofun nofun)
  · exact hbusy _ nofun nofun

section

variable {log : List Entry} {e : Entry} {code : Option ExitCode}

theorem verdict_note (h : ∀ e ∈ log, ∀ k, e.verdict = some k → code = some k) (he : ∀ k, e.verdict = some k → code = some k) :
    ∀ e' ∈ log ++ [e], ∀ k, e'.verdict = some k → code = some k := by
  intro e' hmem
  rcases List.mem_append.mp hmem with hmem | hmem
  · exact h e' hmem
  · exact List.mem_singleton.mp hmem ▸ he

theorem stopped_note (h : ∀ before after, log = before ++ .ticked :: after → .signalled ∈ before → code = some .ok)
    (he : e = .ticked → .signalled ∈ log → code = some .ok) :
    ∀ before after, log ++ [e] = before ++ .ticked :: after → .signalled ∈ before → code = some .ok := by
  intro before after hsplit hmem
  rcases split_snoc hsplit with ⟨rest, hlog, -⟩ | ⟨rfl, rfl, -⟩
  · exact h before rest hlog hmem
  · exact he rfl hmem

theorem settled_note (h : log.countP (· = .reaped .gateway) = log.countP Entry.settles)
    (he : decide (e = .reaped .gateway) = e.settles) :
    (log ++ [e]).countP (· = .reaped .gateway) = (log ++ [e]).countP Entry.settles := by
  rw [List.countP_append, List.countP_append, h, List.countP_singleton, List.countP_singleton, he]

theorem mem_note {x : Entry} (e : Entry) (hne : x ≠ e) (h : x ∈ log ++ [e]) : x ∈ log := by
  rcases List.mem_append.mp h with h | h
  · exact h
  · exact absurd (List.mem_singleton.mp h) hne

end

theorem Inv.advance {t : ℚ} (h : Inv c s) (ht : s.now ≤ t) : Inv c { s with now := t } :=
  { h with counted := h.counted.later ht }

theorem Inv.exit {child : Child} (h : Inv c s) (hr : (child, pid) ∈ s.running) :
    Inv c ({ s with running := s.running.erase (child, pid), zombies := pid :: s.zombies }.note (.exited child)) where
  tracked := h.tracked.exit hr
  counted := h.counted.note rfl
  judged := h.judged.snoc trivial
  accounted := settled_note h.accounted rfl
  verdict := verdict_note h.verdict nofun
  stopped := stopped_note h.stopped nofun
  signalled hmem := h.signalled (mem_note (.exited child) nofun hmem)
  pending due hdue := ⟨(h.pending due hdue).1.note nofun, (h.pending due hdue).2⟩
  gone := by
    intro hmem pid' hrun
    have hrun' := List.mem_of_mem_erase hrun
    by_cases hc : child = .server
    · subst hc
      have hsame : pid' = pid := Option.some.inj ((h.tracked.known _ _ hrun').symm.trans (h.tracked.known _ _ hr))
      subst hsame
      exact h.tracked.once.not_mem_erase hrun
    · exact h.gone (mem_note (.exited child) (fun he => hc (Entry.exited.inj he).symm) hmem) pid' hrun'
  starting hc := by
    obtain ⟨hs, hd, hne⟩ := h.starting hc
    refine ⟨hs, hd, fun hmem => ?_⟩
    by_cases he : child = .server
    · subst he
      rw [h.tracked.known _ _ hr] at hs
      cases hs
    · exact hne (mem_note (.exited child) (fun he' => he (Entry.exited.inj he').symm) hmem)
  unstarted hc := ⟨(h.unstarted hc).1, fun t hmem => (h.unstarted hc).2 t (mem_note (.exited child) nofun hmem)⟩
  served := h.served
  atEnd := h.atEnd
  alive := h.alive

theorem Inv.signal (h : Inv c s) (signum : ℕ) : Inv c ({ s with stopSignal := some signum }.note .signalled) where
  tracked := h.tracked
  counted := h.counted.note rfl
  judged := h.judged.snoc trivial
  accounted := settled_note h.accounted rfl
  verdict := verdict_note h.verdict nofun
  stopped := stopped_note h.stopped nofun
  signalled _ := rfl
  pending due hdue := ⟨(h.pending due hdue).1.note nofun, (h.pending due hdue).2⟩
  gone hmem := h.gone (mem_note .signalled nofun hmem)
  starting hc := ⟨(h.starting hc).1, (h.starting hc).2.1, fun hmem => (h.starting hc).2.2 (mem_note .signalled nofun hmem)⟩
  unstarted hc := ⟨(h.unstarted hc).1, fun t hmem => (h.unstarted hc).2 t (mem_note .signalled nofun hmem)⟩
  served := h.served
  atEnd := h.atEnd
  alive := h.alive

theorem Inv.orphan (h : Inv c s) (hf : s.fresh pid = true) : Inv c { s with zombies := pid :: s.zombies } :=
  { h with tracked := h.tracked.orphan (fresh_iff.mp hf).2 }

/-- While a run goes on, nothing has decided on its end. -/
theorem Inv.undecided (h : Inv c s) (hc : s.control.code = none) (code : Option ExitCode) :
    ∀ e ∈ s.log, ∀ k, e.verdict = some k → code = some k := by
  intro e he k hk
  have hcode := h.verdict e he k hk
  rw [hc] at hcode
  cases hcode

theorem Inv.unstopped (h : Inv c s) (hc : s.control.code = none) (code : Option ExitCode) :
    ∀ before after, s.log = before ++ .ticked :: after → .signalled ∈ before → code = some .ok := by
  intro before after hsplit hmem
  have hcode := h.stopped before after hsplit hmem
  rw [hc] at hcode
  cases hcode

theorem Inv.stop (h : Inv c s) (hc : s.control = .idle) : Inv c ((s.note .ticked).shutdown .ok) := by
  have hcode : s.control.code = none := by rw [hc]; rfl
  have hpending : ∀ due, s.gatewayRestartDue = some due →
      Pending (s.log ++ [.ticked] ++ [.finishing .ok]) due ∧ s.pids .gateway = none :=
    fun due hdue =>
      ⟨.note (e := .finishing .ok) (.note (e := .ticked) (h.pending due hdue).1 nofun) nofun, (h.pending due hdue).2⟩
  constructor
  · exact h.tracked
  · exact (h.counted.note rfl).note rfl
  · exact (h.judged.snoc (x := Entry.ticked) trivial).snoc (x := Entry.finishing .ok) trivial
  · exact settled_note (settled_note h.accounted rfl) rfl
  · exact verdict_note (verdict_note (h.undecided hcode _) nofun) (fun k hk => hk)
  · exact stopped_note (stopped_note (h.unstopped hcode _) (fun _ _ => rfl)) nofun
  · exact fun hmem => h.signalled (mem_note .ticked nofun (mem_note (.finishing .ok) nofun hmem))
  · exact hpending
  · exact fun hmem => h.gone (mem_note .ticked nofun (mem_note (.finishing .ok) nofun hmem))
  · exact fun he => by rcases he with he | he <;> cases he
  · exact nofun
  · exact fun he => by rcases he with he | he | he <;> cases he
  · exact fun ⟨_, he⟩ => nomatch he
  · exact nofun

theorem Inv.tick (h : Inv c s) (hc : s.control = .idle) (hs : s.stopSignal.isSome = false) :
    Inv c { s.note .ticked with control := .reaping } where
  tracked := h.tracked
  counted := h.counted.note rfl
  judged := h.judged.snoc trivial
  accounted := settled_note h.accounted rfl
  verdict := verdict_note (h.undecided (by rw [hc]; rfl) _) nofun
  stopped := stopped_note (h.unstopped (by rw [hc]; rfl) _)
    (fun _ hmem => by have hsome := h.signalled hmem; rw [hs] at hsome; cases hsome)
  signalled hmem := h.signalled (mem_note .ticked nofun hmem)
  pending due hdue := ⟨(h.pending due hdue).1.note nofun, (h.pending due hdue).2⟩
  gone hmem := h.gone (mem_note .ticked nofun hmem)
  starting he := by rcases he with he | he <;> cases he
  unstarted := nofun
  served _ := h.served (.inl hc)
  atEnd := fun ⟨_, he⟩ => nomatch he
  alive := nofun

theorem Inv.passed (h : Inv c s) (hc : s.control = .reaping) (hz : s.zombies = []) :
    Inv c ({ s with control := .restarting }.note .passed) where
  tracked := h.tracked
  counted := h.counted.note rfl
  judged := by
    refine h.judged.snoc (fun hmem => ?_)
    -- Nothing waits to be collected, so the server is one of the processes that run.
    obtain ⟨pid, hpid⟩ := Option.ne_none_iff_exists'.mp (h.served (.inr (.inl hc)))
    rcases h.tracked.kept _ _ hpid with hrun | hzom
    · exact h.gone hmem pid hrun
    · rw [hz] at hzom
      cases hzom
  accounted := settled_note h.accounted rfl
  verdict := verdict_note (h.undecided (by rw [hc]; rfl) _) nofun
  stopped := stopped_note (h.unstopped (by rw [hc]; rfl) _) nofun
  signalled hmem := h.signalled (mem_note .passed nofun hmem)
  pending due hdue := ⟨(h.pending due hdue).1.note nofun, (h.pending due hdue).2⟩
  gone hmem := h.gone (mem_note .passed nofun hmem)
  starting he := by rcases he with he | he <;> cases he
  unstarted := nofun
  served _ := h.served (.inr (.inl hc))
  atEnd := fun ⟨_, he⟩ => nomatch he
  alive := nofun

/-- A child is started only while nothing has decided on the end of the run. -/
theorem Inv.unfinished (h : Inv c s) (hc : s.control.code = none) (code : ExitCode) : .finishing code ∉ s.log := by
  intro hmem
  have hcode := h.verdict _ hmem code rfl
  rw [hc] at hcode
  cases hcode

theorem Inv.startGateway (h : Inv c s) (hc : s.control = .startGateway) (hf : s.fresh pid = true) :
    Inv c { s.spawn .gateway pid with control := .startServer } := by
  obtain ⟨hz, hr⟩ := fresh_iff.mp hf
  obtain ⟨hserver, hdue, hne⟩ := h.starting (.inl hc)
  obtain ⟨hgateway, hunstarted⟩ := h.unstarted hc
  have hcode : s.control.code = none := by rw [hc]; rfl
  have hkeep : Function.update s.pids .gateway (some pid) .server = none := by
    rw [Function.update_of_ne (show Child.server ≠ .gateway from nofun)]
    exact hserver
  constructor
  · exact h.tracked.spawn hgateway hz hr
  · exact h.counted.note rfl
  · exact h.judged.snoc ⟨h.unfinished hcode, fun _ => .inl hunstarted⟩
  · exact settled_note h.accounted rfl
  · exact verdict_note (h.undecided hcode _) nofun
  · exact stopped_note (h.unstopped hcode _) nofun
  · exact fun hmem => h.signalled (mem_note (.started .gateway s.now) nofun hmem)
  · exact fun due he => nomatch (hdue.symm.trans he : (none : Option ℚ) = some due)
  · exact fun hmem => (hne (mem_note (.started .gateway s.now) nofun hmem)).elim
  · exact fun _ => ⟨hkeep, hdue, fun hmem => hne (mem_note (.started .gateway s.now) nofun hmem)⟩
  · exact nofun
  · exact fun he => by rcases he with he | he | he <;> cases he
  · exact fun ⟨_, he⟩ => nomatch he
  · exact nofun

theorem Inv.startServer (h : Inv c s) (hc : s.control = .startServer) (hf : s.fresh pid = true) :
    Inv c { s.spawn .server pid with control := .idle } := by
  obtain ⟨hz, hr⟩ := fresh_iff.mp hf
  obtain ⟨hserver, hdue, hne⟩ := h.starting (.inr hc)
  have hcode : s.control.code = none := by rw [hc]; rfl
  have hspawned : (s.spawn .server pid).pids .server = some pid := by
    show Function.update s.pids .server (some pid) .server = some pid
    exact Function.update_self ..
  constructor
  · exact h.tracked.spawn hserver hz hr
  · exact h.counted.note rfl
  · exact h.judged.snoc ⟨h.unfinished hcode, nofun⟩
  · exact settled_note h.accounted rfl
  · exact verdict_note (h.undecided hcode _) nofun
  · exact stopped_note (h.unstopped hcode _) nofun
  · exact fun hmem => h.signalled (mem_note (.started .server s.now) nofun hmem)
  · exact fun due he => nomatch (hdue.symm.trans he : (none : Option ℚ) = some due)
  · exact fun hmem => (hne (mem_note (.started .server s.now) nofun hmem)).elim
  · exact fun he => by rcases he with he | he <;> cases he
  · exact nofun
  · exact fun _ he => nomatch hspawned.symm.trans he
  · exact fun ⟨_, he⟩ => nomatch he
  · exact nofun

theorem Inv.restart {due : ℚ} (h : Inv c s) (hc : s.control = .restarting) (hf : s.fresh pid = true)
    (hd : s.gatewayRestartDue = some due) (hle : due ≤ s.now) :
    Inv c { ({ s with gatewayRestartDue := none }).spawn .gateway pid with control := .idle } := by
  obtain ⟨hz, hr⟩ := fresh_iff.mp hf
  obtain ⟨hpending, hgateway⟩ := h.pending due hd
  have hcode : s.control.code = none := by rw [hc]; rfl
  have hserved : Function.update s.pids .gateway (some pid) .server ≠ none := by
    rw [Function.update_of_ne (show Child.server ≠ .gateway from nofun)]
    exact h.served (.inr (.inr hc))
  constructor
  · exact h.tracked.spawn hgateway hz hr
  · exact h.counted.note rfl
  · exact h.judged.snoc ⟨h.unfinished hcode, fun _ => .inr ⟨due, hpending, hle⟩⟩
  · exact settled_note h.accounted rfl
  · exact verdict_note (h.undecided hcode _) nofun
  · exact stopped_note (h.unstopped hcode _) nofun
  · exact fun hmem => h.signalled (mem_note (.started .gateway s.now) nofun hmem)
  · exact nofun
  · intro hmem pid' hrun
    rcases List.mem_cons.mp hrun with he | hrun
    · cases he
    · exact h.gone (mem_note (.started .gateway s.now) nofun hmem) pid' hrun
  · exact fun he => by rcases he with he | he <;> cases he
  · exact nofun
  · exact fun _ => hserved
  · exact fun ⟨_, he⟩ => nomatch he
  · exact nofun

theorem Inv.stray (h : Inv c s) (hn : s.nameOf pid = none) : Inv c (s.collected pid) :=
  { h with tracked := h.tracked.stray (nameOf_none hn) }

theorem Inv.forget_pending (h : Inv c s) (child : Child) (due : ℚ) (hd : s.gatewayRestartDue = some due) :
    Pending s.log due ∧ Function.update s.pids child none .gateway = none := by
  refine ⟨(h.pending due hd).1, ?_⟩
  by_cases hc : Child.gateway = child
  · subst hc
    exact Function.update_self ..
  · rw [Function.update_of_ne hc]
    exact (h.pending due hd).2

theorem Inv.server (h : Inv c s) (hc : s.control = .reaping) (hz : pid ∈ s.zombies) (hn : s.nameOf pid = some .server) :
    Inv c ((((s.collected pid).forget .server).note (.reaped .server)).shutdown .serverExited) := by
  have hcode : s.control.code = none := by rw [hc]; rfl
  have hmem : ∀ {x : Entry}, x ≠ .reaped .server → x ≠ .finishing .serverExited →
      x ∈ s.log ++ [.reaped .server] ++ [.finishing .serverExited] → x ∈ s.log :=
    fun hr hf hx => mem_note (.reaped .server) hr (mem_note (.finishing .serverExited) hf hx)
  constructor
  · exact h.tracked.forget hz (nameOf_some hn)
  · exact (h.counted.note rfl).note rfl
  · exact (h.judged.snoc (x := Entry.reaped .server) trivial).snoc (x := Entry.finishing .serverExited) trivial
  · exact settled_note (settled_note h.accounted rfl) rfl
  · exact verdict_note (verdict_note (h.undecided hcode _) (fun _ hk => hk)) (fun _ hk => hk)
  · exact stopped_note (stopped_note (h.unstopped hcode _) nofun) nofun
  · exact fun hx => h.signalled (hmem nofun nofun hx)
  · intro due hdue
    obtain ⟨hp, hg⟩ := h.forget_pending .server due hdue
    exact ⟨.note (e := .finishing .serverExited) (.note (e := .reaped .server) hp nofun) nofun, hg⟩
  · exact fun hx => h.gone (hmem nofun nofun hx)
  · exact fun he => by rcases he with he | he <;> cases he
  · exact nofun
  · exact fun he => by rcases he with he | he | he <;> cases he
  · exact fun ⟨_, he⟩ => nomatch he
  · exact nofun

/-- The power of two still has a float wherever a restart is scheduled. -/
def Answerable (c : Config) (s : System) : Prop :=
  (s.recentRestarts c).length < c.maxGatewayRestarts → (s.recentRestarts c).length < 1024

/-- A gateway exit is collected and settled at once. -/
theorem settled_pair {e : Entry} {log : List Entry} (h : log.countP (· = .reaped .gateway) = log.countP Entry.settles)
    (he : e.settles = true) :
    (log ++ [Entry.reaped .gateway] ++ [e]).countP (· = .reaped .gateway) =
      (log ++ [Entry.reaped .gateway] ++ [e]).countP Entry.settles := by
  simp only [List.countP_append, List.countP_singleton, h]
  cases e with
  | answered | gaveUp => rfl
  | _ => cases he

theorem Inv.gateway (h : Inv c s) (hc : s.control = .reaping) (hz : pid ∈ s.zombies) (hn : s.nameOf pid = some .gateway)
    (hfit : Answerable c s) :
    Inv c ((((s.collected pid).forget .gateway).note (.reaped .gateway)).onGatewayExit c) := by
  have hcode : s.control.code = none := by rw [hc]; rfl
  have hgone : Function.update s.pids .gateway none .gateway = none := Function.update_self ..
  have hserved : Function.update s.pids .gateway none .server ≠ none := by
    rw [Function.update_of_ne (show Child.server ≠ .gateway from nofun)]
    exact h.served (.inr (.inl hc))
  have hcounted : Counted c s.now s.gatewayRestarts (s.log ++ [.reaped .gateway]) := h.counted.note rfl
  have hlength : restartsAt c s.now (s.log ++ [.reaped .gateway]) = (s.recentRestarts c).length := hcounted.restartsAt_now
  have hrecent : (((s.collected pid).forget .gateway).note (.reaped .gateway)).recentRestarts c = s.recentRestarts c := rfl
  unfold onGatewayExit
  dsimp only
  rw [hrecent]
  by_cases hfull : c.maxGatewayRestarts ≤ (s.recentRestarts c).length
  · rw [if_pos hfull]
    have hmem : ∀ {x : Entry}, x ≠ .reaped .gateway → x ≠ .gaveUp s.now → x ≠ .finishing .gatewayUnrecoverable →
        x ∈ s.log ++ [.reaped .gateway] ++ [.gaveUp s.now] ++ [.finishing .gatewayUnrecoverable] → x ∈ s.log :=
      fun hr hg hf hx => mem_note (.reaped .gateway) hr (mem_note (.gaveUp s.now) hg
        (mem_note (.finishing .gatewayUnrecoverable) hf hx))
    constructor
    · exact h.tracked.forget hz (nameOf_some hn)
    · exact (hcounted.prune.note rfl).note rfl
    · refine ((h.judged.snoc (x := Entry.reaped .gateway) trivial).snoc (x := Entry.gaveUp s.now) ?_).snoc
        (x := Entry.finishing .gatewayUnrecoverable) trivial
      exact hfull.trans hlength.ge
    · exact settled_note (settled_pair (e := .gaveUp s.now) h.accounted rfl) rfl
    · exact verdict_note (verdict_note (verdict_note (h.undecided hcode _) nofun) (fun _ hk => hk)) (fun _ hk => hk)
    · exact stopped_note (stopped_note (stopped_note (h.unstopped hcode _) nofun) nofun) nofun
    · exact fun hx => h.signalled (hmem nofun nofun nofun hx)
    · intro due hdue
      refine ⟨.note (e := .finishing .gatewayUnrecoverable) (.note (e := .gaveUp s.now) (.note (e := .reaped .gateway)
        (h.pending due hdue).1 nofun) nofun) nofun, hgone⟩
    · exact fun hx => h.gone (hmem nofun nofun nofun hx)
    · exact fun he => by rcases he with he | he <;> cases he
    · exact nofun
    · exact fun he => by rcases he with he | he | he <;> cases he
    · exact fun ⟨_, he⟩ => nomatch he
    · exact nofun
  · have hroom : (s.recentRestarts c).length < c.maxGatewayRestarts := not_le.mp hfull
    rw [if_neg hfull, if_neg (not_le.mpr (hfit hroom))]
    obtain ⟨due, hdue⟩ : ∃ due, due = s.now + delay c (s.recentRestarts c).length := ⟨_, rfl⟩
    have hmem : ∀ {x : Entry}, x ≠ .reaped .gateway → x ≠ .answered s.now due →
        x ∈ s.log ++ [.reaped .gateway] ++ [.answered s.now due] → x ∈ s.log :=
      fun hr ha hx => mem_note (.reaped .gateway) hr (mem_note (.answered s.now due) ha hx)
    show Inv c (System.note _ (.answered s.now (s.now + delay c (s.recentRestarts c).length)))
    rw [← hdue]
    constructor
    · exact h.tracked.forget hz (nameOf_some hn)
    · exact hcounted.answer (hlength ▸ hroom) due
    · refine (h.judged.snoc (x := Entry.reaped .gateway) trivial).snoc (x := Entry.answered s.now due) ?_
      exact ⟨hlength ▸ hroom, by rw [hlength, hdue]⟩
    · exact settled_pair (e := .answered s.now due) h.accounted rfl
    · exact verdict_note (verdict_note (h.undecided hcode _) nofun) nofun
    · exact stopped_note (stopped_note (h.unstopped hcode _) nofun) nofun
    · exact fun hx => h.signalled (hmem nofun nofun hx)
    · intro due' he
      have hsame : due = due' := hdue.trans (Option.some.inj he)
      subst hsame
      exact ⟨⟨s.log ++ [.reaped .gateway], [], s.now, rfl, nofun⟩, hgone⟩
    · exact fun hx => h.gone (hmem nofun nofun hx)
    · exact fun he => by rcases he with he | he <;> exact nomatch hc.symm.trans he
    · exact fun he => nomatch hc.symm.trans he
    · exact fun _ => hserved
    · exact fun ⟨_, he⟩ => nomatch hc.symm.trans he
    · exact fun he => nomatch hc.symm.trans he

theorem Inv.collect {w : Waited} (h : Inv c s) (hc : s.control.code ≠ none) (hw : s.canWait w = true) :
    Inv c (s.collect w) := by
  have hbusy : ∀ control, control.code = none → s.control ≠ control := fun control hn he => hc (he ▸ hn)
  cases w with
  | nothing => exact h
  | noChildren =>
      -- Without processes there is nothing that the table could still hold.
      obtain ⟨hz, hr⟩ := Bool.and_eq_true_iff.mp hw
      rw [List.isEmpty_iff] at hz hr
      have hnone : ∀ child, s.pids child = none := by
        intro child
        cases hp : s.pids child with
        | none => rfl
        | some pid =>
            rcases h.tracked.kept child pid hp with hrun | hzom
            · rw [hr] at hrun; cases hrun
            · rw [hz] at hzom; cases hzom
      have hsame : s.pids = fun _ => none := funext hnone
      show Inv c { s with pids := fun _ => none }
      rw [← hsame]
      exact h
  | child pid =>
      have hz : pid ∈ s.zombies := of_decide_eq_true hw
      have hname : (s.collected pid).nameOf pid = s.nameOf pid := rfl
      unfold System.collect
      dsimp only
      rw [hname]
      cases hn : s.nameOf pid with
      | none => exact h.stray hn
      | some child =>
          exact { h with
            tracked := h.tracked.forget hz (nameOf_some hn)
            pending := fun due hd => h.forget_pending _ due hd
            starting := fun he => by rcases he with he | he <;> exact absurd he (hbusy _ rfl)
            unstarted := fun he => absurd he (hbusy _ rfl)
            served := fun he => by rcases he with he | he | he <;> exact absurd he (hbusy _ rfl)
            atEnd := by
              intro hend child'
              show Function.update s.pids child none child' = none
              by_cases he : child' = child
              · subst he
                exact Function.update_self ..
              · rw [Function.update_of_ne he]
                exact h.atEnd hend child' }

theorem Inv.rest (h : Inv c s) (hc : s.control = .restarting) : Inv c { s with control := .idle } :=
  { h with
    verdict := h.undecided (by rw [hc]; rfl) _
    stopped := h.unstopped (by rw [hc]; rfl) _
    starting := fun he => by rcases he with he | he <;> cases he
    unstarted := nofun
    served := fun _ => h.served (.inr (.inr hc))
    atEnd := fun ⟨_, he⟩ => nomatch he
    alive := nofun }

theorem Inv.finish {control : Control} (h : Inv c s) (hc : s.control.code ≠ none) (hsame : control.code = s.control.code)
    (hend : ∀ code, control = .ended code → s.childless = true) : Inv c { s with control := control } := by
  have hbusy : ∀ control', control'.code = none → control ≠ control' :=
    fun control' hn he => hc (hsame ▸ he ▸ hn)
  exact { h with
    verdict := fun e he code hv => hsame.trans (h.verdict e he code hv)
    stopped := fun before after hsplit hmem => hsame.trans (h.stopped before after hsplit hmem)
    starting := fun he => by rcases he with he | he <;> exact absurd he (hbusy _ rfl)
    unstarted := fun he => absurd he (hbusy _ rfl)
    served := fun he => by rcases he with he | he | he <;> exact absurd he (hbusy _ rfl)
    atEnd := fun ⟨code, he⟩ => childless_none (hend code he)
    alive := hbusy _ rfl }

/-- A step collects no gateway exit that is to be answered by a restart while the
window holds 1024 of them. -/
def Fits (c : Config) (s : System) (e : Event) : Prop :=
  ∀ pid, e = .waitpid (.child pid) → s.control = .reaping → s.pids .gateway = some pid → Answerable c s

/-- One step keeps the invariant. -/
theorem Inv.step {e : Event} (h : Inv c s) (hstep : step c s e = some s') (hfit : Fits c s e) : Inv c s' := by
  cases step_moved hstep with
  | advance ht => exact h.advance ht
  | exit hr => exact h.exit hr
  | orphan hf => exact h.orphan hf
  | signal signum => exact h.signal signum
  | stop hc hs => exact h.stop hc
  | tick hc hs => exact h.tick hc hs
  | startGateway hc hf => exact h.startGateway hc hf
  | startServer hc hf => exact h.startServer hc hf
  | restart hc hf hd hle => exact h.restart hc hf hd hle
  | stray hc hz hn => exact h.stray hn
  | server hc hz hn => exact h.server hc hz hn
  | gateway hc hz hn => exact h.gateway hc hz hn (hfit _ rfl hc (nameOf_some hn))
  | passed hc hz => exact h.passed hc hz
  | collect hc hw hp => exact h.collect hc hw
  | rest hc => exact h.rest hc
  | finish hc hsame hend => exact h.finish hc hsame hend

theorem length_le_one {α : Type} {xs : List α} (hnodup : xs.Nodup) (hall : ∀ x ∈ xs, ∀ y ∈ xs, x = y) : xs.length ≤ 1 := by
  cases xs with
  | nil => exact Nat.zero_le 1
  | cons x rest =>
      cases rest with
      | nil => exact le_rfl
      | cons y rest =>
          have hsame : x = y := hall x List.mem_cons_self y (List.mem_cons_of_mem x List.mem_cons_self)
          exact absurd (hsame ▸ List.mem_cons_self) (List.nodup_cons.mp hnodup).1

theorem Inv.policy (h : Inv c s) : Policy c s where
  single child := by
    have hnodup : (s.running.filter (fun r => r.1 = child)).Nodup := h.tracked.once.filter _
    have hall : ∀ r ∈ s.running.filter (fun r => r.1 = child), ∀ r' ∈ s.running.filter (fun r => r.1 = child), r = r' := by
      rintro ⟨a, p⟩ hr ⟨b, q⟩ hr'
      obtain ⟨hmem, ha⟩ := List.mem_filter.mp hr
      obtain ⟨hmem', hb⟩ := List.mem_filter.mp hr'
      cases of_decide_eq_true ha
      cases of_decide_eq_true hb
      rw [Option.some.inj ((h.tracked.known _ _ hmem).symm.trans (h.tracked.known _ _ hmem'))]
    exact length_le_one hnodup hall
  window := h.counted.window
  judged := h.judged
  accounted := h.accounted
  verdict := h.verdict
  stopped := h.stopped
  atEnd hover := by
    have hend : ∃ code, s.control = .ended code := by
      cases hc : s.control with
      | ended code => exact ⟨code, rfl⟩
      | crashed => exact absurd hc h.alive
      | _ => rw [hc] at hover; cases hover
    refine ⟨h.atEnd hend, List.eq_nil_iff_forall_not_mem.mpr (fun r hr => ?_)⟩
    have hknown := h.tracked.known r.1 r.2 hr
    rw [h.atEnd hend] at hknown
    cases hknown

end MoomooMcp.Supervisor
