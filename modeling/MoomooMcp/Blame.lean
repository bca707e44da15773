import MoomooMcp.Lockout

namespace MoomooMcp.Preparation

open ExecutionStore

/-- The fields the REAL visibility guard compares. -/
inductive Field
  | qty
  | price

def Field.ofParams : Field → Params → Option ℚ
  | .qty, p => p.qty
  | .price, p => p.price

def Field.ofOrder : Field → BrokerOrder → Option ℚ
  | .qty, o => o.qty
  | .price, o => o.price

def asked (r : Row) (f : Field) : Option ℚ := f.ofParams r.request

def journaled (r : Row) (f : Field) : Option ℚ := r.mergedRequest.bind f.ofParams

/-- The guard refuses the order, and it does so on account of this row. -/
structure Blames (row : Row) (order : BrokerOrder) (pending : List Row) (r : Row) : Prop where
  own : Real.ownTarget row.account order = .ok ()
  refused : ∃ e, Real.validateTarget row order pending = .error e ∧ Real.requireVisible order r = .error e
  first : ∃ past post, pending = past ++ r :: post ∧ ∀ r' ∈ past, Real.requireVisible order r' = .ok ()

/-- The row asked for a value that the order does not show. -/
def Deserves (order : BrokerOrder) (r : Row) : Prop := ∃ f v, asked r f = some v ∧ f.ofOrder order ≠ some v

/-- The guard over an order, whatever the broker reports for it, refuses only on
account of rows that asked for something else. -/
def BlamesAskers (j : Journal) (account : Account) (id : OrderId) : Prop :=
  ∀ row order r, row.account = account → order.orderId = some id →
    Blames row order (j.unobservedModifications account id) r → Deserves order r

/-- What an order shows that gets past the earlier rows, and that has what this one asked for. -/
def Given (past : List Row) (r : Row) (f : Field) (v : ℚ) : Prop :=
  (∃ r' ∈ past, journaled r' f = some v) ∨ asked r f = some v

/-- Whatever is journaled for the row without having been asked for is journaled for
an earlier row, too, or else no order shows all of the latter anyway. -/
def Forced (past : List Row) (r : Row) : Prop :=
  (∀ f v, journaled r f = some v → Given past r f v) ∨ ∃ f v w, Given past r f v ∧ Given past r f w ∧ v ≠ w

def Covered (j : Journal) (account : Account) (id : OrderId) : Prop :=
  ∀ past r post, j.unobservedModifications account id = past ++ r :: post → Forced past r

variable {row r : Row} {order : BrokerOrder} {pending past post : List Row} {e : Exc}

theorem shows_iff {m : Params} : Shows order m ↔ ∀ f : Field, ∀ v, f.ofParams m = some v → f.ofOrder order = some v := by
  constructor
  · intro h f v hv
    cases f with
    | qty => exact h.qty v hv
    | price => exact h.price v hv
  · intro h
    exact ⟨h .qty, h .price⟩

theorem visible_iff {m : Params} (hm : r.mergedRequest = some m) :
    Real.requireVisible order r = .ok () ↔ ∀ f v, journaled r f = some v → f.ofOrder order = some v := by
  rw [Real.requireVisible_ok]
  unfold journaled
  simp only [hm, Option.some.injEq, exists_eq_left', Option.bind_some]
  exact shows_iff

/-- Broker rows that name no account or environment count as one's own. -/
theorem ownTarget_unlabelled {account : Account} (henv : order.trdEnv = none) (hacc : order.accId = none) :
    Real.ownTarget account order = .ok () := by
  unfold Real.ownTarget refuseIf
  rw [henv, hacc]
  simp

theorem observePending_error (hpast : ∀ r' ∈ past, Real.requireVisible order r' = .ok ())
    (hr : Real.requireVisible order r = .error e) : Real.observePending order (past ++ r :: post) = .error e := by
  induction past with
  | nil =>
      simp only [List.nil_append, Real.observePending, hr]
      rfl
  | cons r' past ih =>
      have hhead := hpast r' List.mem_cons_self
      have htail := ih (fun r'' hr'' => hpast r'' (List.mem_cons_of_mem _ hr''))
      simp only [List.cons_append, Real.observePending, hhead, htail]
      rfl

/-- The first row that the order does not show is the one to blame. -/
theorem Blames.intro (hown : Real.ownTarget row.account order = .ok ())
    (hpast : ∀ r' ∈ past, Real.requireVisible order r' = .ok ()) (hr : Real.requireVisible order r ≠ .ok ()) :
    Blames row order (past ++ r :: post) r := by
  cases he : Real.requireVisible order r with
  | ok u => exact absurd he hr
  | error e =>
      refine ⟨hown, ⟨e, ?_, he⟩, past, post, rfl, hpast⟩
      unfold Real.validateTarget
      rw [hown]
      exact observePending_error hpast he

theorem first_hidden (h : ¬∀ r ∈ pending, Real.requireVisible order r = .ok ()) :
    ∃ past r post, pending = past ++ r :: post ∧ (∀ r' ∈ past, Real.requireVisible order r' = .ok ()) ∧
      Real.requireVisible order r ≠ .ok () := by
  induction pending with
  | nil => exact absurd (fun r hr => nomatch hr) h
  | cons r rest ih =>
      by_cases hr : Real.requireVisible order r = .ok ()
      · have hrest : ¬∀ r ∈ rest, Real.requireVisible order r = .ok () := by
          intro hrest
          apply h
          intro r' hr'
          rcases List.mem_cons.mp hr' with rfl | hr'
          · exact hr
          · exact hrest r' hr'
        obtain ⟨past, r₁, post, rfl, hpast, hr₁⟩ := ih hrest
        refine ⟨r :: past, r₁, post, rfl, ?_, hr₁⟩
        intro r' hr'
        rcases List.mem_cons.mp hr' with rfl | hr'
        · exact hr
        · exact hpast r' hr'
      · refine ⟨[], r, rest, rfl, ?_, hr⟩
        intro r' hr'
        cases hr'

/-- Every refusal of a target of one's own is on account of some row. -/
theorem blames_of_refused (hown : Real.ownTarget row.account order = .ok ())
    (h : Real.validateTarget row order pending = .error e) : ∃ r, Blames row order pending r := by
  unfold Real.validateTarget at h
  rw [hown] at h
  have h : Real.observePending order pending = .error e := h
  by_cases hall : ∀ r ∈ pending, Real.requireVisible order r = .ok ()
  · rw [Real.observePending_accepts hall] at h
    cases h
  · obtain ⟨past, r, post, rfl, hpast, hr⟩ := first_hidden hall
    exact ⟨r, .intro hown hpast hr⟩

/-- An order that shows exactly what it is forced to. -/
theorem exists_reading (id : OrderId) (hagree : ∀ f v w, Given past r f v → Given past r f w → v = w) :
    ∃ order : BrokerOrder, order.orderId = some id ∧ (∀ account, Real.ownTarget account order = .ok ()) ∧
      (∀ f v, Given past r f v → f.ofOrder order = some v) ∧
      ∀ f v, journaled r f = some v → f.ofOrder order = some v → Given past r f v := by
  have hvalue : ∀ f, ∃ x : ℚ, (∀ v, Given past r f v → x = v) ∧ ∀ v, journaled r f = some v → x = v → Given past r f v := by
    intro f
    by_cases hgiven : ∃ v, Given past r f v
    · obtain ⟨v, hv⟩ := hgiven
      refine ⟨v, fun w hw => hagree f v w hv hw, ?_⟩
      rintro w _ rfl
      exact hv
    · refine ⟨(journaled r f).getD 0 + 1, fun v hv => absurd ⟨v, hv⟩ hgiven, ?_⟩
      intro v hv hx
      rw [hv, Option.getD_some] at hx
      simp at hx
  obtain ⟨q, hq, hq'⟩ := hvalue .qty
  obtain ⟨x, hx, hx'⟩ := hvalue .price
  refine ⟨{ orderId := some id, qty := some q, price := some x }, rfl,
    fun account => ownTarget_unlabelled rfl rfl, ?_, ?_⟩
  · intro f v hv
    cases f with
    | qty => exact congrArg some (hq v hv)
    | price => exact congrArg some (hx v hv)
  · intro f v hv hshown
    cases f with
    | qty => exact hq' v hv (Option.some.inj hshown)
    | price => exact hx' v hv (Option.some.inj hshown)

/-- Without a row that lacks its dispatched request, exactly the covered journals blame askers only. -/
theorem blamesAskers_iff {j : Journal} {account : Account} {id : OrderId}
    (hmerged : ∀ r ∈ j.unobservedModifications account id, r.mergedRequest ≠ none) :
    BlamesAskers j account id ↔ Covered j account id := by
  constructor
  · intro hblames past r post hpending
    by_contra hforced
    unfold Forced at hforced
    rw [not_or] at hforced
    obtain ⟨hfilled, hconflict⟩ := hforced
    have hagree : ∀ f v w, Given past r f v → Given past r f w → v = w := by
      intro f v w hv hw
      by_contra hne
      exact hconflict ⟨f, v, w, hv, hw, hne⟩
    obtain ⟨order, hid, hown, hgiven, hshown⟩ := exists_reading id hagree
    rw [hpending] at hmerged
    have hpast : ∀ r' ∈ past, Real.requireVisible order r' = .ok () := by
      intro r' hr'
      obtain ⟨m, hm⟩ := Option.ne_none_iff_exists'.mp (hmerged r' (List.mem_append_left _ hr'))
      exact (visible_iff hm).mpr (fun f v hv => hgiven f v (.inl ⟨r', hr', hv⟩))
    have hr : Real.requireVisible order r ≠ .ok () := by
      obtain ⟨m, hm⟩ := Option.ne_none_iff_exists'.mp (hmerged r (List.mem_append_right _ List.mem_cons_self))
      intro hok
      exact hfilled (fun f v hv => hshown f v hv ((visible_iff hm).mp hok f v hv))
    have hmem : r ∈ j.unobservedModifications account id := by
      rw [hpending]
      exact List.mem_append_right _ List.mem_cons_self
    obtain ⟨_, haccount, _⟩ := mem_unobservedModifications.mp hmem
    obtain ⟨f, v, hasked, hnot⟩ := hblames r order r haccount hid (by rw [hpending]; exact .intro (hown _) hpast hr)
    exact hnot (hgiven f v (.inr hasked))
  · intro hcovered row order r _ _ hb
    obtain ⟨past, post, hpending, hpast⟩ := hb.first
    obtain ⟨e, _, he⟩ := hb.refused
    rw [hpending] at hmerged
    by_contra hdeserves
    have hgiven : ∀ f v, Given past r f v → f.ofOrder order = some v := by
      rintro f v (⟨r', hr', hv⟩ | hasked)
      · obtain ⟨m, hm⟩ := Option.ne_none_iff_exists'.mp (hmerged r' (List.mem_append_left _ hr'))
        exact (visible_iff hm).mp (hpast r' hr') f v hv
      · by_contra hne
        exact hdeserves ⟨f, v, hasked, hne⟩
    rcases hcovered past r post hpending with hfilled | ⟨f, v, w, hv, hw, hne⟩
    · obtain ⟨m, hm⟩ := Option.ne_none_iff_exists'.mp (hmerged r (List.mem_append_right _ List.mem_cons_self))
      have hok : Real.requireVisible order r = .ok () :=
        (visible_iff hm).mpr (fun f v hv => hgiven f v (hfilled f v hv))
      rw [hok] at he
      cases he
    · have hboth := (hgiven f v hv).symm.trans (hgiven f w hw)
      exact hne (Option.some.inj hboth)

end MoomooMcp.Preparation

namespace MoomooMcp.System

open ExecutionStore Executor Preparation Machine

variable {env : Environment} {ok : Sys → Action → Sys → Prop} {s : Sys}

/-- The REAL visibility guard refuses one's own target only on account of a row, and it
blames none but rows that asked for something else exactly where every value that
was journaled without having been asked for is one an earlier row has, too. -/
theorem guard_blames_askers (h : Reachable env ok s) (account : Account) (id : OrderId) :
    (∀ row order e, Real.ownTarget row.account order = .ok () →
      Real.validateTarget row order (s.journal.unobservedModifications account id) = .error e →
      ∃ r, Blames row order (s.journal.unobservedModifications account id) r) ∧
    (BlamesAskers s.journal account id ↔ Covered s.journal account id) := by
  refine ⟨fun row order e hown herror => blames_of_refused hown herror, blamesAskers_iff ?_⟩
  intro r hr
  obtain ⟨hrow, _, _, hack, _⟩ := mem_unobservedModifications.mp hr
  obtain ⟨m, hm, _⟩ := merged_complete h hrow (acknowledged_marker h hrow hack)
  rw [hm]
  exact Option.some_ne_none m

def acknowledgedModification (c : Request) : List Action :=
  [.reopen "epoch-1" .none .none] ++ modificationSteps c (sampleOrder 10 100) sampleAcknowledgement

/-- An acknowledged DISABLE that gave neither quantity nor price is blamed for the
order's own quantity. -/
theorem disable_blamed : ∃ s, Reachable .real free s ∧ ¬BlamesAskers s.journal 7 (.decimal [4, 2]) := by
  have hrun : ∃ s r, run step (initial .real)
      (acknowledgedModification (sampleModification "disable" (some .disable) none none)) = some s ∧
      s.journal.unobservedModifications 7 (.decimal [4, 2]) = [r] ∧ r.account = 7 ∧
      (∀ f, asked r f = none) ∧ Real.requireVisible (sampleOrder 10 100) r ≠ .ok () :=
    ⟨_, _, rfl, rfl, rfl, fun f => by cases f <;> rfl, fun hok => by cases hok⟩
  obtain ⟨s, r, hrun, hpending, haccount, hasked, hhidden⟩ := hrun
  refine ⟨s, reachable_of_run _ hrun, fun h => ?_⟩
  have hblamed : Blames r (sampleOrder 10 100) ([] ++ r :: []) r :=
    .intro (ownTarget_unlabelled rfl rfl) (fun r' hr' => by cases hr') hhidden
  obtain ⟨f, v, hv, _⟩ := h r (sampleOrder 10 100) r haccount rfl (by rw [hpending]; exact hblamed)
  rw [hasked f] at hv
  cases hv

/-- A modification that gave both values is only ever blamed for these. -/
theorem full_modification_blamed : ∃ s, run step (initial .real)
    (acknowledgedModification (sampleModification "full" (some .normal) (some 20) (some 90))) = some s ∧
    s.journal.unobservedModifications 7 (.decimal [4, 2]) ≠ [] ∧ BlamesAskers s.journal 7 (.decimal [4, 2]) := by
  have hrun : ∃ s r, run step (initial .real)
      (acknowledgedModification (sampleModification "full" (some .normal) (some 20) (some 90))) = some s ∧
      s.journal.unobservedModifications 7 (.decimal [4, 2]) = [r] ∧ ∀ f, journaled r f = asked r f :=
    ⟨_, _, rfl, rfl, fun f => by cases f <;> rfl⟩
  obtain ⟨s, r, hrun, hpending, hsame⟩ := hrun
  refine ⟨s, hrun, by rw [hpending]; exact List.cons_ne_nil _ _, ?_⟩
  refine (guard_blames_askers (reachable_of_run _ hrun) 7 (.decimal [4, 2])).2.mpr ?_
  intro past r' post hsplit
  rw [hpending] at hsplit
  cases past with
  | nil =>
      cases hsplit
      exact .inl (fun f v hv => .inr ((hsame f).symm.trans hv))
  | cons r'' past =>
      have hlength := congrArg List.length hsplit
      simp at hlength

end MoomooMcp.System
