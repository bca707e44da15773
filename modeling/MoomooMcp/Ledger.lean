import Mathlib.Data.List.Nodup
import Mathlib.Logic.Relation

namespace MoomooMcp.Ledger

/-- How far an operation has come that may be sent to the outside world once. -/
inductive Stage
  | booked
  | armed
  | sent
  | acknowledged
  | doubtful
  | withdrawn
  | settled
  deriving DecidableEq, Repr

/-- The stages that may still lead to a send. -/
def Stage.open : Stage → Bool
  | .booked | .armed => true
  | _ => false

/-- The stages at which no outcome is owed any more. -/
def Stage.closed : Stage → Bool
  | .withdrawn | .settled => true
  | _ => false

/-- The changes that send nothing. An armed operation whose keeper died is in doubt,
like a sent one whose answer got lost. -/
inductive Stage.Next : Stage → Stage → Prop
  | arm : Next .booked .armed
  | withdraw : Next .booked .withdrawn
  | presume : Next .booked .doubtful
  | acknowledge : Next .sent .acknowledged
  | lose {s} (h : s = .armed ∨ s = .sent) : Next s .doubtful
  | settle {s} (h : s = .booked ∨ s = .doubtful ∨ s = .acknowledged) : Next s .settled

variable {κ ι : Type}

structure Entry (ι : Type) where
  identity : ι
  stage : Stage

/-- What may become of an operation while nothing is sent. -/
inductive Hop : Option (Entry ι) → Option (Entry ι) → Prop
  | refl (e) : Hop e e
  | book (i) : Hop none (some ⟨i, .booked⟩)
  | next {i s s'} (h : s.Next s') : Hop (some ⟨i, s⟩) (some ⟨i, s'⟩)

/-- The operations on record, and the ones sent in their order. -/
structure Book (κ ι : Type) where
  entries : κ → Option (Entry ι)
  sent : List κ

def empty : Book κ ι := ⟨fun _ => none, []⟩

/-- Any operations move on by themselves, or one that is armed is sent. -/
inductive Step : Book κ ι → Book κ ι → Prop
  | quiet {l l'} (h : ∀ k, Hop (l.entries k) (l'.entries k)) (hsent : l'.sent = l.sent) : Step l l'
  | send {l l' k i} (hbefore : l.entries k = some ⟨i, .armed⟩) (hafter : l'.entries k = some ⟨i, .sent⟩)
      (hothers : ∀ k', k' ≠ k → l'.entries k' = l.entries k') (hsent : l'.sent = l.sent ++ [k]) : Step l l'

abbrev Steps : Book κ ι → Book κ ι → Prop := Relation.ReflTransGen Step

variable {l l' : Book κ ι} {k : κ} {e e' : Entry ι}

theorem Step.refl (l : Book κ ι) : Step l l := .quiet (fun k => .refl (l.entries k)) rfl

/-- An entry stays, with its identity, and never opens again once it is closed to sending. -/
structure Entry.Follows (e e' : Entry ι) : Prop where
  identity : e'.identity = e.identity
  shut : e.stage.open = false → e'.stage.open = false
  closed : e.stage.closed = true → e'.stage = e.stage

theorem Entry.Follows.refl (e : Entry ι) : e.Follows e := ⟨rfl, id, fun _ => rfl⟩

theorem Entry.Follows.trans {e'' : Entry ι} (h : e.Follows e') (h' : e'.Follows e'') : e.Follows e'' := by
  refine ⟨h'.identity.trans h.identity, fun hs => h'.shut (h.shut hs), fun hc => ?_⟩
  have hstage := h.closed hc
  rw [h'.closed (hstage ▸ hc), hstage]

theorem Stage.Next.shut {s s' : Stage} (h : s.Next s') (hs : s.open = false) : s'.open = false := by
  cases h with
  | arm | withdraw | presume => cases hs
  | acknowledge | lose | settle => rfl

theorem Stage.Next.unclosed {s s' : Stage} (h : s.Next s') : s.closed = false := by
  cases h with
  | arm | withdraw | presume | acknowledge => rfl
  | lose h => rcases h with rfl | rfl <;> rfl
  | settle h => rcases h with rfl | rfl | rfl <;> rfl

theorem Hop.follows {o : Option (Entry ι)} (h : Hop (some e) o) : ∃ e', o = some e' ∧ e.Follows e' := by
  cases h with
  | refl => exact ⟨e, rfl, .refl e⟩
  | next h => exact ⟨_, rfl, rfl, h.shut, fun hc => by rw [h.unclosed] at hc; cases hc⟩

theorem Step.follows (h : Step l l') (he : l.entries k = some e) : ∃ e', l'.entries k = some e' ∧ e.Follows e' := by
  cases h with
  | quiet h =>
      have hk := h k
      rw [he] at hk
      exact hk.follows
  | @send k' i hbefore hafter hothers =>
      by_cases hk : k = k'
      · subst hk
        rw [hbefore] at he
        cases he
        exact ⟨_, hafter, ⟨rfl, nofun, nofun⟩⟩
      · exact ⟨e, (hothers k hk).trans he, .refl e⟩

/-- The record of an operation is never lost nor rewritten. -/
theorem Steps.follows (h : Steps l l') (he : l.entries k = some e) : ∃ e', l'.entries k = some e' ∧ e.Follows e' := by
  induction h with
  | refl => exact ⟨e, he, .refl e⟩
  | tail _ hstep ih =>
      obtain ⟨e', he', hfollows⟩ := ih
      obtain ⟨e'', he'', hfollows'⟩ := hstep.follows he'
      exact ⟨e'', he'', hfollows.trans hfollows'⟩

/-- Every operation sent is on record as such, was sent once, and what is on record as
sent or acknowledged was sent. -/
structure Sound (l : Book κ ι) : Prop where
  once : l.sent.Nodup
  recorded : ∀ k ∈ l.sent, ∃ e, l.entries k = some e ∧ e.stage.open = false ∧ e.stage ≠ .withdrawn
  genuine : ∀ k e, l.entries k = some e → e.stage = .sent ∨ e.stage = .acknowledged → k ∈ l.sent

theorem sound_empty : Sound (empty : Book κ ι) := ⟨List.nodup_nil, nofun, nofun⟩

theorem Hop.recorded {o : Option (Entry ι)} (h : Hop (some e) o) (hshut : e.stage.open = false) (hkept : e.stage ≠ .withdrawn) :
    ∃ e', o = some e' ∧ e'.stage.open = false ∧ e'.stage ≠ .withdrawn := by
  cases h with
  | refl => exact ⟨e, rfl, hshut, hkept⟩
  | next h =>
      refine ⟨_, rfl, h.shut hshut, ?_⟩
      cases h with
      | withdraw => cases hshut
      | arm | presume | acknowledge | lose | settle => nofun

theorem Hop.genuine {o : Option (Entry ι)} (h : Hop o (some e)) (hstage : e.stage = .sent ∨ e.stage = .acknowledged) :
    ∃ e', o = some e' ∧ (e'.stage = .sent ∨ e'.stage = .acknowledged) := by
  cases h with
  | refl => exact ⟨e, rfl, hstage⟩
  | book => rcases hstage with h | h <;> cases h
  | next h =>
      cases h with
      | acknowledge => exact ⟨_, rfl, .inl rfl⟩
      | arm | withdraw | presume | lose | settle => rcases hstage with h | h <;> cases h

theorem Step.sound (h : Step l l') (hs : Sound l) : Sound l' := by
  cases h with
  | quiet h hsent =>
      refine ⟨hsent ▸ hs.once, fun k hk => ?_, fun k e he hstage => ?_⟩
      · rw [hsent] at hk
        obtain ⟨e, he, hshut, hkept⟩ := hs.recorded k hk
        have hhop := h k
        rw [he] at hhop
        exact hhop.recorded hshut hkept
      · have hhop := h k
        rw [he] at hhop
        obtain ⟨e', he', hstage'⟩ := hhop.genuine hstage
        rw [hsent]
        exact hs.genuine k e' he' hstage'
  | @send k i hbefore hafter hothers hsent =>
      have hfresh : k ∉ l.sent := by
        intro hk
        obtain ⟨e, he, hshut, _⟩ := hs.recorded k hk
        rw [hbefore] at he
        cases he
        cases hshut
      refine ⟨?_, fun k' hk' => ?_, fun k' e he hstage => ?_⟩
      · rw [hsent, List.nodup_append]
        refine ⟨hs.once, List.nodup_singleton k, fun x hx y hy hxy => ?_⟩
        rw [List.mem_singleton.mp hy] at hxy
        exact hfresh (hxy ▸ hx)
      · by_cases hk : k' = k
        · subst hk
          exact ⟨_, hafter, rfl, nofun⟩
        · rw [hsent, List.mem_append, List.mem_singleton] at hk'
          rw [hothers k' hk]
          exact hs.recorded k' (hk'.resolve_right hk)
      · rw [hsent, List.mem_append, List.mem_singleton]
        by_cases hk : k' = k
        · exact .inr hk
        · rw [hothers k' hk] at he
          exact .inl (hs.genuine k' e he hstage)

theorem Steps.sound (h : Steps l l') (hs : Sound l) : Sound l' := by
  induction h with
  | refl => exact hs
  | tail _ hstep ih => exact hstep.sound ih

/-- What is closed to sending and was not sent is never sent. -/
theorem Steps.unsent (h : Steps l l') (he : l.entries k = some e) (hshut : e.stage.open = false) (hk : k ∉ l.sent) :
    k ∉ l'.sent := by
  induction h with
  | refl => exact hk
  | @tail l₁ l₂ hsteps hstep ih =>
      cases hstep with
      | quiet _ hsent => rwa [hsent]
      | @send k' i hbefore _ _ hsent =>
          rw [hsent, List.mem_append, List.mem_singleton]
          refine not_or.mpr ⟨ih, ?_⟩
          rintro rfl
          obtain ⟨e', he', hfollows⟩ := Steps.follows hsteps he
          rw [hbefore] at he'
          cases he'
          cases hfollows.shut hshut

end MoomooMcp.Ledger
