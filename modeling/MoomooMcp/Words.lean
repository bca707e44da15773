import Mathlib.Data.List.Basic

namespace MoomooMcp.Words

variable {α : Type} (p : α → Bool) (sep : α)

/-- The maximal runs of elements that are not separators. -/
def words (cs : List α) : List (List α) := (cs.splitOnP p).filter (fun w => !w.isEmpty)

def unwords : List (List α) → List α
  | [] => []
  | [w] => w
  | w :: v :: ws => w ++ sep :: unwords (v :: ws)

/-- What a word is: not empty and without a separator. -/
def Solid (w : List α) : Prop := w ≠ [] ∧ ∀ c ∈ w, p c = false

/-- Words set apart by one separator each. -/
def Tidy (cs : List α) : Prop := ∃ ws : List (List α), (∀ w ∈ ws, Solid p w) ∧ cs = unwords sep ws

variable {p sep}

theorem splitOnP_solid (cs : List α) : ∀ w ∈ cs.splitOnP p, ∀ c ∈ w, p c = false := by
  induction cs with
  | nil => simp
  | cons c cs ih =>
      rw [List.splitOnP_cons_eq_if_modifyHead]
      split
      · simpa using ih
      · next hc =>
          obtain ⟨w, ws, hws⟩ := List.exists_cons_of_ne_nil (List.splitOnP_ne_nil p cs)
          rw [hws] at ih ⊢
          intro v hv
          rcases List.mem_cons.mp hv with rfl | hv
          · intro d hd
            rcases List.mem_cons.mp hd with rfl | hd
            · simpa using hc
            · exact ih w List.mem_cons_self d hd
          · exact ih v (List.mem_cons_of_mem w hv)

theorem words_solid (cs : List α) : ∀ w ∈ words p cs, Solid p w := by
  intro w hw
  obtain ⟨hmem, hne⟩ := List.mem_filter.mp hw
  exact ⟨by simpa using hne, splitOnP_solid cs w hmem⟩

theorem tidy_unwords_words (cs : List α) : Tidy p sep (unwords sep (words p cs)) :=
  ⟨words p cs, words_solid cs, rfl⟩

@[simp] theorem words_nil : words p [] = [] := rfl

theorem words_of_solid {w : List α} (h : Solid p w) : words p w = [w] := by
  rw [words, List.splitOnP_eq_singleton h.2]
  simp [h.1]

theorem words_cons {w : List α} (h : Solid p w) (hsep : p sep = true) (cs : List α) :
    words p (w ++ sep :: cs) = w :: words p cs := by
  rw [words, List.splitOnP_append_cons_of_forall_mem h.2 sep hsep]
  simp [words, h.1]

theorem words_unwords (hsep : p sep = true) {ws : List (List α)} (h : ∀ w ∈ ws, Solid p w) :
    words p (unwords sep ws) = ws := by
  induction ws with
  | nil => rfl
  | cons w ws ih =>
      have hw : Solid p w := h w List.mem_cons_self
      have hws := ih (fun v hv => h v (List.mem_cons_of_mem w hv))
      cases ws with
      | nil => exact words_of_solid hw
      | cons v ws => rw [unwords, words_cons hw hsep, hws]

/-- A tidy text is what splitting and joining gives back. -/
theorem Tidy.unwords_words {cs : List α} (h : Tidy p sep cs) (hsep : p sep = true) :
    unwords sep (words p cs) = cs := by
  obtain ⟨ws, hws, rfl⟩ := h
  rw [words_unwords hsep hws]

theorem Tidy.cons {w cs : List α} (hw : Solid p w) (h : Tidy p sep cs) (hne : cs ≠ []) :
    Tidy p sep (w ++ sep :: cs) := by
  obtain ⟨ws, hws, rfl⟩ := h
  cases ws with
  | nil => exact absurd rfl hne
  | cons v ws =>
      refine ⟨w :: v :: ws, fun u hu => ?_, rfl⟩
      rcases List.mem_cons.mp hu with rfl | hu
      · exact hw
      · exact hws u hu

theorem tidy_of_solid {w : List α} (h : Solid p w) : Tidy p sep w := ⟨[w], by simpa using h, rfl⟩

/-- A tidy text cut anywhere and closed by an element that is no separator is tidy. -/
theorem Tidy.take_snoc {cs : List α} (h : Tidy p sep cs) {e : α} (he : p e = false) (k : ℕ) :
    Tidy p sep (cs.take k ++ [e]) := by
  have hlast : Solid p [e] := ⟨by simp, by simpa using he⟩
  have hcut {w : List α} (hw : Solid p w) (k : ℕ) : Solid p (w.take k ++ [e]) := by
    refine ⟨by simp, fun c hc => ?_⟩
    rcases List.mem_append.mp hc with hc | hc
    · exact hw.2 c (List.mem_of_mem_take hc)
    · exact List.mem_singleton.mp hc ▸ he
  obtain ⟨ws, hws, rfl⟩ := h
  induction ws generalizing k with
  | nil => simpa [unwords] using tidy_of_solid hlast
  | cons w ws ih =>
      have hw : Solid p w := hws w List.mem_cons_self
      cases ws with
      | nil => exact tidy_of_solid (hcut hw k)
      | cons v ws =>
          rw [unwords]
          by_cases hk : k ≤ w.length
          · rw [List.take_append_of_le_length hk]
            exact tidy_of_solid (hcut hw k)
          · obtain ⟨j, hj⟩ : ∃ j, k = w.length + (j + 1) := ⟨k - w.length - 1, by omega⟩
            rw [hj, List.take_length_add_append, List.take_succ_cons, List.append_assoc, List.cons_append]
            exact .cons hw (ih j (fun u hu => hws u (List.mem_cons_of_mem w hu))) (by simp)

/-- The separators of a tidy text are all the joining one. -/
theorem Tidy.eq_sep {cs : List α} (h : Tidy p sep cs) {c : α} (hc : c ∈ cs) (hp : p c = true) : c = sep := by
  obtain ⟨ws, hws, rfl⟩ := h
  induction ws with
  | nil => cases hc
  | cons w ws ih =>
      have hw : Solid p w := hws w List.mem_cons_self
      have hword : c ∉ w := fun hmem => by rw [hw.2 c hmem] at hp; cases hp
      cases ws with
      | nil => exact absurd hc hword
      | cons v ws =>
          rcases List.mem_append.mp hc with hc | hc
          · exact absurd hc hword
          · rcases List.mem_cons.mp hc with hc | hc
            · exact hc
            · exact ih (fun u hu => hws u (List.mem_cons_of_mem w hu)) hc

end MoomooMcp.Words
