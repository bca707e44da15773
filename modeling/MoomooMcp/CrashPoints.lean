import Mathlib.Logic.Relation

namespace MoomooMcp.CrashPoints

variable {σ ε α β ι : Type}

/-- A program over a durable state: the states its atomic writes left behind, in
their order, and how it ended. -/
def Durable (σ ε α : Type) := σ → List σ × Except ε α

namespace Durable

/-- The state after a list of writes. -/
def lastOf : σ → List σ → σ
  | s, [] => s
  | _, s' :: rest => lastOf s' rest

def result (x : Durable σ ε α) (s : σ) : Except ε α := (x s).2

def left (x : Durable σ ε α) (s : σ) : σ := lastOf s (x s).1

/-- The states in which a crash can leave the program, by the number of writes before it. -/
def crashes (x : Durable σ ε α) (s : σ) : List σ := s :: (x s).1

def give (a : α) : Durable σ ε α := fun _ => ([], .ok a)

def fail (e : ε) : Durable σ ε α := fun _ => ([], .error e)

def look : Durable σ ε σ := fun s => ([], .ok s)

def write (s' : σ) : Durable σ ε Unit := fun _ => ([s'], .ok ())

/-- A transaction, which commits as a whole or is rolled back. -/
def commit : Except ε σ → Durable σ ε Unit
  | .ok s' => write s'
  | .error e => fail e

def andThen (x : Durable σ ε α) (f : α → Durable σ ε β) : Durable σ ε β := fun s =>
  match x.result s with
  | .ok a => ((x s).1 ++ (f a (x.left s)).1, (f a).result (x.left s))
  | .error e => ((x s).1, .error e)

instance : Monad (Durable σ ε) where
  pure := give
  bind := andThen

variable {x : Durable σ ε α} {f : α → Durable σ ε β} {s s' t : σ} {a : α} {b : β}

theorem lastOf_append (xs ys : List σ) : lastOf s (xs ++ ys) = lastOf (lastOf s xs) ys := by
  induction xs generalizing s with
  | nil => rfl
  | cons y xs ih => exact ih

theorem lastOf_mem (xs : List σ) : lastOf s xs ∈ s :: xs := by
  induction xs generalizing s with
  | nil => simp [lastOf]
  | cons y xs ih => exact List.mem_cons_of_mem _ ih

theorem self_mem_crashes (x : Durable σ ε α) (s : σ) : s ∈ x.crashes s := List.mem_cons_self

@[simp] theorem result_pure : (pure a : Durable σ ε α).result s = .ok a := rfl

@[simp] theorem crashes_pure : (pure a : Durable σ ε α).crashes s = [s] := rfl

@[simp] theorem crashes_fail (e : ε) : (fail e : Durable σ ε α).crashes s = [s] := rfl

@[simp] theorem crashes_look : (look : Durable σ ε σ).crashes s = [s] := rfl

@[simp] theorem crashes_write : (write t : Durable σ ε Unit).crashes s = [s, t] := rfl

theorem bind_of_ok (h : x.result s = .ok a) :
    (x >>= f) s = ((x s).1 ++ (f a (x.left s)).1, (f a).result (x.left s)) := by
  change andThen x f s = _
  simp only [andThen, h]

theorem bind_of_error {e : ε} (h : x.result s = .error e) : (x >>= f) s = ((x s).1, .error e) := by
  change andThen x f s = _
  simp only [andThen, h]

theorem result_bind : (x >>= f).result s = .ok b ↔ ∃ a, x.result s = .ok a ∧ (f a).result (x.left s) = .ok b := by
  cases h : x.result s with
  | ok a =>
      rw [result, bind_of_ok h]
      exact ⟨fun hb => ⟨a, rfl, hb⟩, fun ⟨a', ha, hb⟩ => by cases ha; exact hb⟩
  | error e =>
      rw [result, bind_of_error h]
      exact ⟨nofun, fun ⟨_, ha, _⟩ => (nomatch ha)⟩

theorem left_bind (h : x.result s = .ok a) : (x >>= f).left s = (f a).left (x.left s) := by
  rw [left, bind_of_ok h, lastOf_append]
  rfl

theorem mem_crashes_write {y : Unit → Durable σ ε β} :
    s' ∈ (write t >>= y).crashes s ↔ s' = s ∨ s' ∈ (y ()).crashes t := by
  change s' ∈ s :: ([t] ++ (y () t).1) ↔ _
  rw [List.mem_cons, List.singleton_append]
  rfl

/-- The states that any number of crashed runs, each of them under its own
input, can lead to. -/
def Interrupted (program : ι → Durable σ ε α) : σ → σ → Prop :=
  Relation.ReflTransGen (fun s s' => ∃ i, s' ∈ (program i).crashes s)

/-- What every crash of every run preserves, all of them preserve. -/
theorem Interrupted.preserves {program : ι → Durable σ ε α} (h : Interrupted program s s') {P : σ → Prop}
    (hstep : ∀ i s s', P s → s' ∈ (program i).crashes s → P s') (hs : P s) : P s' := by
  induction h with
  | refl => exact hs
  | tail _ hlast ih =>
      obtain ⟨i, hi⟩ := hlast
      exact hstep i _ _ ih hi

end Durable

end MoomooMcp.CrashPoints
