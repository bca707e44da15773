import MoomooMcp.ExecutionStore

namespace MoomooMcp.ExecutionStore

variable {β : Type} {st st' : Store} {j j' : Journal} {fault : Fault} {epoch : Epoch} {op : OperationId}

/-- How a store may change while it is open. -/
structure Degrades (st st' : Store) : Prop where
  epoch : st'.epoch = st.epoch
  reviewed : st'.reviewed = st.reviewed
  failed : st.failed ≠ none → st'.failed ≠ none

theorem Degrades.refl (st : Store) : Degrades st st := ⟨rfl, rfl, id⟩

theorem Degrades.trans {st'' : Store} (h : Degrades st st') (h' : Degrades st' st'') : Degrades st st'' :=
  ⟨h'.epoch.trans h.epoch, h'.reviewed.trans h.reviewed, fun hf => h'.failed (h.failed hf)⟩

theorem degrades_fail (st : Store) (message : String) : Degrades st (st.fail message) :=
  ⟨rfl, rfl, fun _ => by simp [Store.fail]⟩

@[simp] theorem fail_failed (st : Store) (message : String) : (st.fail message).failed ≠ none := by
  simp [Store.fail]

theorem read_cases {value : β} {r : Except Exc β} (h : read st fault value = (r, st')) :
    Degrades st st' ∧ (r = .ok value ∧ st' = st ∧ st.failed = none ∨ ∃ e, r = .error e) := by
  unfold read at h
  cases hf : st.failed with
  | some message =>
      simp only [hf, Prod.mk.injEq] at h
      obtain ⟨rfl, rfl⟩ := h
      exact ⟨.refl _, .inr ⟨_, rfl⟩⟩
  | none =>
      cases fault with
      | none =>
          simp only [hf, Prod.mk.injEq] at h
          obtain ⟨rfl, rfl⟩ := h
          exact ⟨.refl _, .inl ⟨rfl, rfl, rfl⟩⟩
      | raised e =>
          simp only [hf, Prod.mk.injEq] at h
          obtain ⟨rfl, rfl⟩ := h
          exact ⟨.refl _, .inr ⟨_, rfl⟩⟩
      | sqlite message applied =>
          simp only [hf, Prod.mk.injEq] at h
          obtain ⟨rfl, rfl⟩ := h
          exact ⟨degrades_fail _ _, .inr ⟨_, rfl⟩⟩

theorem read_ok {value b : β} (h : read st fault value = (.ok b, st')) :
    b = value ∧ st' = st ∧ st.failed = none := by
  rcases (read_cases h).2 with ⟨hr, hs⟩ | ⟨e, he⟩
  · exact ⟨Except.ok.inj hr, hs⟩
  · cases he

/-- A transaction leaves the tables alone or commits what its body says, and the
caller learns of a commit unless the store is condemned on the way. -/
theorem transact_cases {body : Journal → Except Fail (β × Journal)} {r : Except Exc β}
    (h : transact st j fault body = (r, st', j')) :
    Degrades st st' ∧
      ((j' = j ∧ ∃ e, r = .error e) ∨
        ∃ b, body j = .ok (b, j') ∧ st.failed = none ∧
          (r = .ok b ∧ st' = st ∨ (∃ e, r = .error e) ∧ st'.failed ≠ none)) := by
  unfold transact at h
  cases hf : st.failed with
  | some message =>
      simp only [hf, Prod.mk.injEq] at h
      obtain ⟨rfl, rfl, rfl⟩ := h
      exact ⟨.refl _, .inl ⟨rfl, _, rfl⟩⟩
  | none =>
      simp only [hf] at h
      split at h <;> simp only [Prod.mk.injEq] at h <;> obtain ⟨rfl, rfl, rfl⟩ := h
      · exact ⟨.refl _, .inl ⟨rfl, _, rfl⟩⟩
      · next hb => exact ⟨degrades_fail _ _, .inr ⟨_, hb, rfl, .inr ⟨⟨_, rfl⟩, fail_failed _ _⟩⟩⟩
      · exact ⟨degrades_fail _ _, .inl ⟨rfl, _, rfl⟩⟩
      · next hb => exact ⟨.refl _, .inr ⟨_, hb, rfl, .inl ⟨rfl, rfl⟩⟩⟩
      · exact ⟨.refl _, .inl ⟨rfl, _, rfl⟩⟩
      · exact ⟨degrades_fail _ _, .inl ⟨rfl, _, rfl⟩⟩

theorem transact_ok {body : Journal → Except Fail (β × Journal)} {b : β}
    (h : transact st j fault body = (.ok b, st', j')) :
    body j = .ok (b, j') ∧ st' = st ∧ st.failed = none := by
  rcases (transact_cases h).2 with ⟨_, e, he⟩ | ⟨b', hb, hf, ⟨hr, hs⟩ | ⟨⟨e, he⟩, _⟩⟩
  · cases he
  · cases hr
    exact ⟨hb, hs, hf⟩
  · cases he

theorem health_ready {reviewed : Bool} (h : j.health reviewed = .ready) : reviewed = true ∧ j.reviews = ∅ := by
  unfold Journal.health at h
  split at h
  · cases h
  · split at h
    · cases h
    · next hn =>
        rw [not_or, not_not] at hn
        exact ⟨by simpa using hn.1, hn.2⟩

theorem requireReady_ok (h : requireReady st j fault = (.ok (), st')) :
    st' = st ∧ st.failed = none ∧ st.reviewed = true ∧ j.reviews = ∅ := by
  unfold requireReady at h
  split at h
  · next hr =>
      obtain ⟨hv, rfl, hf⟩ := read_ok hr
      obtain ⟨hrev, hempty⟩ := health_ready hv.symm
      simp only [Prod.mk.injEq, true_and] at h
      exact ⟨h.symm, hf, hrev, hempty⟩
  · cases h
  · split at h <;> cases h

theorem requireReady_degrades {r : Except Exc Unit} (h : requireReady st j fault = (r, st')) :
    Degrades st st' := by
  unfold requireReady at h
  split at h
  · next hr => cases h; exact (read_cases hr).1
  · next hr => cases h; exact (read_cases hr).1
  · next hr => split at h <;> (cases h; exact (read_cases hr).1)

end MoomooMcp.ExecutionStore
