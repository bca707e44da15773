import Mathlib.Data.List.Forall2

namespace MoomooMcp.Continuation

variable {ρ β κ κ' ε : Type}

/-- How asking for page after page comes to an end, or is broken off. -/
inductive Ending (ε : Type)
  | exhausted
  | failed (e : ε)
  | more
  deriving DecidableEq, Repr

/-- What was sent, and what came back: the pages, and the keys for the pages after them. -/
structure Walk (ρ β κ ε : Type) where
  sent : List ρ
  pages : List (List β)
  issued : List κ
  ending : Ending ε
  deriving DecidableEq, Repr

/-- What one page sends and returns. -/
abbrev Answer (ρ β κ ε : Type) := List ρ × Except ε (List β × Option κ)

/-- Ask for at most so many pages, each with the key that came with the one before. -/
def walk (ask : ℕ → Option κ → Answer ρ β κ ε) : ℕ → ℕ → Option κ → Walk ρ β κ ε
  | 0, _, _ => ⟨[], [], [], .more⟩
  | n + 1, i, key =>
      match ask i key with
      | (sent, .error e) => ⟨sent, [], [], .failed e⟩
      | (sent, .ok (rows, none)) => ⟨sent, [rows], [], .exhausted⟩
      | (sent, .ok (rows, some key)) =>
          let rest := walk ask n (i + 1) (some key)
          ⟨sent ++ rest.sent, rows :: rest.pages, key :: rest.issued, rest.ending⟩

/-- Results that differ in their keys only, which correspond. -/
inductive Alike (R : κ → κ' → Prop) : Except ε (List β × Option κ) → Except ε (List β × Option κ') → Prop
  | failed (e) : Alike R (.error e) (.error e)
  | page (rows) {key key'} (h : Option.Rel R key key') : Alike R (.ok (rows, key)) (.ok (rows, key'))

/-- Answers for which the same was sent, and whose results are alike. -/
def Answered (R : κ → κ' → Prop) (a : Answer ρ β κ ε) (b : Answer ρ β κ' ε) : Prop := a.1 = b.1 ∧ Alike R a.2 b.2

variable {R : κ → κ' → Prop} {fine : κ → Prop} {ask : ℕ → Option κ → Answer ρ β κ ε} {ask' : ℕ → Option κ' → Answer ρ β κ' ε}

/-- Walks that begin alike, and go on alike as long as every key is a fine one, are alike. -/
theorem walk_alike
    (hnext : ∀ i k k', R k k' → fine k → Answered R (ask i (some k)) (ask' i (some k'))) :
    ∀ n i key key', Answered R (ask i key) (ask' i key') → (∀ k ∈ (walk ask n i key).issued, fine k) →
      (walk ask n i key).sent = (walk ask' n i key').sent ∧ (walk ask n i key).pages = (walk ask' n i key').pages ∧
        (walk ask n i key).ending = (walk ask' n i key').ending ∧
        List.Forall₂ R (walk ask n i key).issued (walk ask' n i key').issued := by
  intro n
  induction n with
  | zero => exact fun _ _ _ _ _ => ⟨rfl, rfl, rfl, .nil⟩
  | succ n ih =>
      intro i key key' hask hfine
      rw [walk] at hfine ⊢
      rw [walk]
      generalize ask i key = answer at hfine hask ⊢
      generalize ask' i key' = answer' at hask ⊢
      obtain ⟨sent, result⟩ := answer
      obtain ⟨sent', result'⟩ := answer'
      obtain ⟨hsent, hresult⟩ := hask
      obtain rfl : sent = sent' := hsent
      cases hresult with
      | failed e => exact ⟨rfl, rfl, rfl, .nil⟩
      | page rows hkeys =>
          cases hkeys with
          | none => exact ⟨rfl, rfl, rfl, .nil⟩
          | some hr =>
              obtain ⟨hhead, htail⟩ := List.forall_mem_cons.mp hfine
              obtain ⟨hs, hp, he, hi⟩ := ih (i + 1) _ _ (hnext _ _ _ hr hhead) htail
              exact ⟨congrArg _ hs, congrArg _ hp, he, .cons hr hi⟩

end MoomooMcp.Continuation
