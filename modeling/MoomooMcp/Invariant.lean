import MoomooMcp.Durability

namespace MoomooMcp.System

open ExecutionStore Executor CriticalSection

structure ProcessOk (s : Sys) (p : Process) : Prop where
  admission : Held Phase.inAdmission p.admissionLock p.threads
  lock : Held Phase.inLock p.lock p.threads
  threads : ∀ t, ThreadOk (shared s p) (p.threads t)
  distinct : ∀ t u row row', (p.threads t).own = some row → (p.threads u).own = some row' →
    row.operationId = row'.operationId → t = u
  explained : ∀ k r, s.journal.row k = some r → r.state = .dispatching → Explained p.store p.late p.threads k
  reviewed : p.store.reviewed = true

structure Inv (s : Sys) : Prop where
  durable : Durable s.journal s.starts
  process : ∀ p, s.process = some p → ProcessOk s p

variable {s s' : Sys} {a : Action} {p : Process} {t : Tid} {sh : Shared} {ph : Phase} {i : Input}

theorem ProcessOk.owned (h : ProcessOk s p) {row : Row} (hown : (p.threads t).own = some row) :
    Owned s.journal row :=
  (h.threads t).owned hown

/-- While one thread is inside the lock the others are outside. -/
theorem ProcessOk.outside (h : ProcessOk s p) {u : Tid} (hut : u ≠ t) (hu : (p.threads u).inLock = true) :
    (p.threads t).inLock = false := by
  cases ht : (p.threads t).inLock with
  | false => rfl
  | true => exact absurd (h.lock.unique hu ht) hut

theorem inv_thread (hs : Inv s) (hp : s.process = some p) (hmove : Move (shared s p) i (p.threads t) sh ph)
    {admissionLock lock : Option Tid}
    (hadmission : claim Phase.inAdmission p.admissionLock t (p.threads t) ph = some admissionLock)
    (hlock : claim Phase.inLock p.lock t (p.threads t) ph = some lock) (now : ℚ) :
    Inv ⟨sh.journal, sh.starts, now, some ⟨sh.store, sh.late, admissionLock, lock, Function.update p.threads t ph⟩⟩ := by
  have hok := hs.process p hp
  have hdistinct : ∀ u, u ≠ t → ∀ row row', (p.threads t).own = some row → (p.threads u).own = some row' →
      row.operationId ≠ row'.operationId :=
    fun u hut row row' ht hu he => hut (hok.distinct t u row row' ht hu he).symm
  refine ⟨hmove.durable (hok.threads t) hs.durable, ?_⟩
  rintro q hq
  cases hq
  refine ⟨hok.admission.claim hadmission, hok.lock.claim hlock, ?_, ?_, ?_, ?_⟩
  · intro u
    by_cases hut : u = t
    · subst u
      simp only [Function.update_self]
      exact hmove.threadOk (hok.threads t) hs.durable
    · simp only [Function.update_of_ne hut]
      cases hu : (p.threads u).inLock with
      | true => exact (hok.threads u).undisturbed (hmove.outside (hok.outside hut hu))
      | false => exact (hok.threads u).waiting hu hmove (hok.threads t) (hdistinct u hut)
  · -- A thread that just admitted an operation is alone with it: nobody owns what has no row.
    have hnew : ∀ u row row', u ≠ t → ph.own = some row → (p.threads u).own = some row' →
        row.operationId ≠ row'.operationId := by
      intro u row row' hut ht hu he
      rcases hmove.own with hown | hown | ⟨c, account, uuid, _, hcommit, hph⟩
      · rw [hown] at ht
        exact hdistinct u hut row row' ht hu he
      · rw [hown] at ht
        cases ht
      · rw [hph] at ht
        cases ht
        obtain ⟨r, hr⟩ := hok.owned hu
        rw [← he] at hr
        cases hcommit.fresh.symm.trans hr
    intro u v row row' hu hv he
    dsimp only at hu hv
    by_cases hut : u = t <;> by_cases hvt : v = t
    · rw [hut, hvt]
    · subst u
      rw [Function.update_self] at hu
      rw [Function.update_of_ne hvt] at hv
      exact absurd he (hnew v row row' hvt hu hv)
    · subst v
      rw [Function.update_self] at hv
      rw [Function.update_of_ne hut] at hu
      exact absurd he.symm (hnew u row' row hut hv hu)
    · rw [Function.update_of_ne hut] at hu
      rw [Function.update_of_ne hvt] at hv
      exact hok.distinct u v row row' hu hv he
  · intro k r hr hstate
    exact hmove.explained (hok.threads t) hok.explained hr hstate
  · exact hmove.degrades.reviewed.trans hok.reviewed

theorem inv_step (hs : Inv s) (h : Transition s a s') : Inv s' := by
  cases h with
  | thread hp _ hmove hadmission hlock => exact inv_thread hs hp hmove hadmission hlock _
  | crash => exact ⟨hs.durable, fun _ hq => by cases hq⟩
  | unopened => exact hs
  | unreviewed hp hstartup =>
      exact ⟨hs.durable.startup hstartup, fun _ hq => by rw [hp] at hq; cases hq⟩
  | reviewed hp hstartup hreview =>
      exact ⟨(hs.durable.startup hstartup).reviews hreview, fun _ hq => by rw [hp] at hq; cases hq⟩
  | opened hp hstartup hreview =>
      refine ⟨(hs.durable.startup hstartup).reviews hreview, ?_⟩
      rintro q hq
      cases hq
      refine ⟨held_outside (fun _ => rfl), held_outside (fun _ => rfl), fun _ => trivial, ?_, ?_, rfl⟩
      · intro t u row row' ht
        cases ht
      · intro k r hr hstate
        rw [hreview.row, hstartup.rows, Option.map_eq_some_iff] at hr
        obtain ⟨r₀, _, rfl⟩ := hr
        unfold Row.recoverDispatch at hstate
        split at hstate
        · cases hstate
        · next hne => exact absurd hstate hne

theorem inv_initial (env : Environment) : Inv (initial env) :=
  ⟨⟨fun _ h => absurd h List.not_mem_nil, List.nodup_nil, fun _ _ h => by cases h⟩, fun _ h => by cases h⟩

theorem reachable_inv {env : Environment} {ok : Sys → Action → Sys → Prop} (h : Reachable env ok s) : Inv s :=
  h.induction (fun _ he => by rw [he]; exact inv_initial env)
    (fun _ _ _ _ hs hstep _ => inv_step hs (step_transition hstep))

/-- The rule for the holder of the execution lock. A property of the program points
inside the lock that the steps of threads outside preserve, and that a thread's own
steps preserve, holds of every thread in every reachable state. -/
theorem lock_rule {Q : Sys → Process → Phase → Prop} {env : Environment} {ok : Sys → Action → Sys → Prop}
    (houtside : ∀ s p ph, ph.inLock = false → Q s p ph)
    (hframe : ∀ s p s' p' t i ph, Moved s p t i s' p' → ok s (.thread t i) s' →
      Undisturbed (shared s p) (shared s' p') → Q s p ph → Q s' p' ph)
    (hmove : ∀ s p s' p' t i, Inv s → Moved s p t i s' p' → ok s (.thread t i) s' →
      Q s p (p.threads t) → Q s' p' (p'.threads t))
    (h : Reachable env ok s) (hp : s.process = some p) (t : Tid) : Q s p (p.threads t) := by
  have hall : ∀ p, s.process = some p → ∀ t, Q s p (p.threads t) := by
    refine h.induction (P := fun s => ∀ p, s.process = some p → ∀ t, Q s p (p.threads t)) ?_ ?_
    · rintro s rfl p hp
      cases hp
    · intro s a s' hreach hq hstep hok p' hp' u
      have hs := reachable_inv hreach
      rcases (step_transition hstep).process_cases hp' with ⟨p, t, i, rfl, hmoved⟩ | hidle
      · have hprocess := hs.process p hmoved.process
        by_cases hut : u = t
        · subst u
          exact hmove s p s' p' t i hs hmoved hok (hq p hmoved.process t)
        · rw [hmoved.others u hut]
          cases hu : (p.threads u).inLock with
          | false => exact houtside s' p' _ hu
          | true =>
              have hundisturbed := hmoved.move.outside (hprocess.outside hut hu)
              exact hframe s p s' p' t i _ hmoved hok hundisturbed (hq p hmoved.process u)
      · rw [hidle]
        exact houtside s' p' _ rfl
  exact hall p hp t

end MoomooMcp.System
