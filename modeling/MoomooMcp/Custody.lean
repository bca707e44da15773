import MoomooMcp.LeaseMoves

namespace MoomooMcp.BrokerDispatch

open RateLimit

variable {β : Type} {p q : Pools β} {x : PoolKey × ℕ} {held held' : List (PoolKey × ℕ)}

/-- Whatever a dispatch could still start is on a list. -/
def Listed (p : Pools β) (held : List (PoolKey × ℕ)) : Prop :=
  ∀ x, (p.accounts x).isSome → p.remaining x ≠ 0 → x ∈ held

namespace Listed

theorem mono (h : Listed p held) (hsub : ∀ x ∈ held, x ∈ held') : Listed p held' :=
  fun x hx hleft => hsub x (h x hx hleft)

theorem keeps (h : Listed p held) (hkeeps : Pools.Keeps p q) (haccounts : q.accounts = p.accounts) : Listed q held := by
  intro x hx hleft
  rw [haccounts] at hx
  rw [(hkeeps x hx).2] at hleft
  exact h x hx hleft

theorem granted (h : Listed p held) (hkeeps : Pools.Keeps p q) {a : Account}
    (haccounts : q.accounts = Function.update p.accounts x (some a)) (hsub : ∀ y ∈ held, y ∈ held') (hx : x ∈ held') :
    Listed q held' := by
  intro y hy hleft
  by_cases hyx : y = x
  · rw [hyx]
    exact hx
  · rw [haccounts, Function.update_of_ne hyx] at hy
    rw [(hkeeps y hy).2] at hleft
    exact hsub y (h y hy hleft)

theorem started (h : Listed p held) (hx : p.remaining x ≠ 0) (hother : ∀ y, y ≠ x → q.remaining y = p.remaining y)
    (haccounts : ∀ y, (q.accounts y).isSome = (p.accounts y).isSome) : Listed q held := by
  intro y hy hleft
  rw [haccounts] at hy
  by_cases hyx : y = x
  · rw [hyx] at hy ⊢
    exact h x hy hx
  · rw [hother y hyx] at hleft
    exact h y hy hleft

variable [InMemoryBucket β] [LawfulBucket β] {policies : PoolKey → RateLimitPolicy}

/-- What is released needs no place on the list any more. -/
theorem release (h : Listed p held) (hsound : Pools.Sound policies p) (hsub : ∀ y ∈ held, y ≠ x → y ∈ held') :
    Listed (p.release x) held' := by
  obtain ⟨_, hself, hother, haccounts⟩ := Pools.release_spec (x := x) hsound
  intro y hy hleft
  rw [haccounts] at hy
  by_cases hyx : y = x
  · rw [hyx] at hleft
    exact absurd hself hleft
  · rw [hother y hyx] at hleft
    exact hsub y (h y hy hleft) hyx

end Listed

def Task.owned : Task → List (PoolKey × ℕ)
  | .entering _ _ _ _ owned | .lacking _ _ _ _ owned _ _ => owned
  | .releasing rest => rest
  | _ => []

/-- The reservations a context that is being entered sees. -/
def Task.slots : Task → PoolKey → Option ℕ
  | .entering _ _ _ slots _ | .lacking _ _ _ slots _ _ _ => slots
  | _ => fun _ => none

def Worker.task : Worker → Task
  | .running task => task
  | _ => .service

def Worker.active : Worker → Bool
  | .running _ => true
  | _ => false

/-- What the worker will release of the bundle. -/
def Worker.clears (lease : Lease) : Worker → List (PoolKey × ℕ)
  | .running _ => lease.slots
  | .finishing rest => rest
  | _ => []

/-- What the awaiter acquired without a lease yet. -/
def Awaiter.gathers : Awaiter → List (PoolKey × ℕ)
  | .acquiring _ slots => slots
  | .failing rest => rest
  | _ => []

/-- What the awaiter will look at when it cancels the lease. -/
def Awaiter.clears (lease : Lease) : Awaiter → List (PoolKey × ℕ)
  | .waiting => lease.slots
  | .cancelling rest => rest
  | _ => []

/-- Whether there is no lease yet. -/
def Awaiter.early : Awaiter → Bool
  | .acquiring _ _ | .failing _ => true
  | _ => false

/-- What the contexts that were entered have to release. -/
def owned (stack : List Frame) : List (PoolKey × ℕ) := stack.flatMap Frame.owned

theorem owned_record (k : PoolKey) (stack : List Frame) : owned (stack.map (Frame.record k)) = owned stack := by
  induction stack with
  | nil => rfl
  | cons f stack ih => exact congrArg (f.owned ++ ·) ih

/-- A context sees the reservations that it, one around it or the lease will release. -/
def Scoped (lease : List (PoolKey × ℕ)) : List Frame → Prop
  | [] => True
  | f :: stack => (∀ k slot, f.slots k = some slot → (k, slot) ∈ f.owned ++ owned stack ++ lease) ∧ Scoped lease stack

theorem scoped_record {lease : List (PoolKey × ℕ)} (k : PoolKey) {stack : List Frame} (h : Scoped lease stack) :
    Scoped lease (stack.map (Frame.record k)) := by
  induction stack with
  | nil => trivial
  | cons f stack ih =>
      refine ⟨fun k' slot hslot => ?_, ih h.2⟩
      rw [owned_record]
      exact h.1 k' slot hslot

/-- What the contexts that were entered have on the protected set. -/
def guards (stack : List Frame) : Finset PoolKey := stack.foldr (fun f keys => f.guards ∪ keys) ∅

theorem guards_cons (f : Frame) (stack : List Frame) : guards (f :: stack) = f.guards ∪ guards stack := rfl

theorem guards_eq_empty {stack : List Frame} (h : ∀ f ∈ stack, f.mutation = none) : guards stack = ∅ := by
  induction stack with
  | nil => rfl
  | cons f stack ih =>
      have hf : f.guards = ∅ := by
        unfold Frame.guards
        rw [h f List.mem_cons_self]
        rfl
      rw [guards_cons, hf, ih (fun g hg => h g (List.mem_cons_of_mem f hg)), Finset.empty_union]

theorem Mutation.record_guards (k : PoolKey) (m : Mutation) : (m.record k).guards = m.guards := by
  obtain ⟨w, wanted, stage, sent⟩ := m
  unfold Mutation.record
  split
  · cases stage <;> rfl
  · rfl

theorem guards_record (k : PoolKey) (stack : List Frame) : guards (stack.map (Frame.record k)) = guards stack := by
  induction stack with
  | nil => rfl
  | cons f stack ih =>
      rw [List.map_cons, guards_cons, guards_cons, ih]
      congr 1
      unfold Frame.guards Frame.record
      cases f.mutation with
      | none => rfl
      | some m => exact m.record_guards k

theorem Frame.guards_of_mutation {f : Frame} {m : Mutation} (h : f.mutation = some m) : f.guards = m.guards := by
  unfold Frame.guards
  rw [h]
  rfl

/-- Mutations are not nested. -/
def Sole (stack : List Frame) : Prop := stack.Pairwise (fun f g => f.mutation = none ∨ g.mutation = none)

theorem sole_record {k : PoolKey} {stack : List Frame} (h : Sole stack) : Sole (stack.map (Frame.record k)) := by
  refine List.pairwise_map.mpr (h.imp ?_)
  rintro f g (hf | hg)
  · exact .inl (by unfold Frame.record; rw [hf]; rfl)
  · exact .inr (by unfold Frame.record; rw [hg]; rfl)

theorem Sole.below {f : Frame} {m : Mutation} {stack : List Frame} (h : Sole (f :: stack)) (hf : f.mutation = some m) :
    ∀ g ∈ stack, g.mutation = none := by
  intro g hg
  rcases List.rel_of_pairwise_cons h hg with hnone | hnone
  · rw [hf] at hnone
    cases hnone
  · exact hnone

/-- What a worker is about to do in the dispatcher. -/
def Task.purpose : Task → Option Purpose
  | .entering purpose _ _ _ _ | .lacking purpose _ _ _ _ _ _ => some purpose
  | .starting purpose => purpose
  | _ => none

namespace Sys

variable [InMemoryBucket β]

/-- All reservations of the dispatch that some part of it can still use. -/
def mine (s : Sys β) : List (PoolKey × ℕ) :=
  s.worker.task.owned ++ owned s.stack ++ s.lease.slots ++ s.awaiter.gathers

/-- What some part of the dispatch is yet to release. -/
def holders (s : Sys β) : List (PoolKey × ℕ) :=
  s.awaiter.gathers ++ s.awaiter.clears s.lease ++ s.worker.clears s.lease ++ (s.worker.task.owned ++ owned s.stack)

/-- Every reservation of the dispatch has someone who will release it. -/
structure Custody (policies : PoolKey → RateLimitPolicy) (s : Sys β) : Prop where
  sound : Pools.Sound policies s.pools
  listed : Listed s.pools s.holders
  known : ∀ x ∈ s.mine, (s.pools.accounts x).isSome
  apart : s.mine.Nodup
  idle : s.worker.active = false → s.stack = []
  early : s.awaiter.early = true → s.worker = .absent ∧ s.lease = .empty
  clears : ∀ x ∈ s.awaiter.clears s.lease, x ∈ s.lease.slots
  scopes : Scoped s.lease.slots s.stack
  seen : ∀ k slot, s.worker.task.slots k = some slot →
    (k, slot) ∈ s.worker.task.owned ++ owned s.stack ++ s.lease.slots
  shielded : s.lease.protectedKeys = guards s.stack
  sole : Sole s.stack
  alone : ∀ w, s.worker.task.purpose = some (.mutation w) → ∀ f ∈ s.stack, f.mutation = none

variable [LawfulBucket β] {policies : PoolKey → RateLimitPolicy} {s t : Sys β} {x : PoolKey × ℕ} {pools : Pools β}

theorem custody_init (clock : ℚ) (requests : List QuotaRequest) :
    Custody policies (init policies clock requests : Sys β) := by
  have hgathers : (init policies clock requests : Sys β).awaiter.gathers = [] := by
    unfold init
    dsimp only
    split <;> rfl
  have hclears : ∀ lease, (init policies clock requests : Sys β).awaiter.clears lease = [] := by
    intro lease
    unfold init
    dsimp only
    split <;> rfl
  have hmine : (init policies clock requests : Sys β).mine = [] := by
    unfold mine
    rw [hgathers]
    rfl
  exact {
    sound := Pools.sound_init clock
    listed := fun x hx => nomatch hx
    known := by rw [hmine]; nofun
    apart := by rw [hmine]; exact .nil
    idle := fun _ => rfl
    early := fun _ => ⟨rfl, rfl⟩
    clears := by rw [hclears]; nofun
    scopes := trivial
    seen := nofun
    shielded := rfl
    sole := .nil
    alone := nofun }

namespace Custody

omit [LawfulBucket β] in
/-- A step of the pools that leaves the reservations of the dispatch alone. -/
theorem keeps (h : Custody policies s) (hsound : Pools.Sound policies pools) (hkeeps : Pools.Keeps s.pools pools)
    (haccounts : pools.accounts = s.pools.accounts) : Custody policies { s with pools := pools } :=
  { h with
    sound := hsound
    listed := h.listed.keeps hkeeps haccounts
    known := fun x hx => (hkeeps x (h.known x hx)).1 }

omit [LawfulBucket β] in
/-- A new reservation is not one that the dispatch has. -/
theorem fresh (h : Custody policies s) (hnew : s.pools.accounts x = none) : x ∉ s.mine := by
  intro hx
  have hknown := h.known x hx
  rw [hnew] at hknown
  cases hknown

/-- One reservation was released, and all others still have someone who will release them. -/
theorem release (h : Custody policies s) (hpools : t.pools = s.pools.release x)
    (hholders : ∀ y ∈ s.holders, y ≠ x → y ∈ t.holders) (hmine : t.mine.Sublist s.mine) :
    Pools.Sound policies t.pools ∧ Listed t.pools t.holders ∧ (∀ y ∈ t.mine, (t.pools.accounts y).isSome) ∧
      t.mine.Nodup := by
  obtain ⟨hsound, _, _, haccounts⟩ := Pools.release_spec (x := x) h.sound
  rw [hpools]
  refine ⟨hsound, h.listed.release h.sound hholders, fun y hy => ?_, h.apart.sublist hmine⟩
  rw [haccounts]
  exact h.known y (hmine.subset hy)

omit [LawfulBucket β] in
/-- A context that is being entered sees what the service code sees. -/
theorem slots_seen (h : Custody policies s) (k : PoolKey) (slot : ℕ) (hslot : s.slots k = some slot) :
    (k, slot) ∈ owned s.stack ++ s.lease.slots := by
  have hscopes := h.scopes
  unfold slots at hslot
  cases hs : s.stack with
  | nil =>
      rw [hs] at hslot
      obtain ⟨before, after, hlookup, _⟩ := List.lookup_eq_some_iff.mp hslot
      rw [hlookup]
      simp
  | cons f below =>
      rw [hs] at hslot hscopes
      exact hscopes.1 k slot hslot

omit [LawfulBucket β] in
theorem entering (h : Custody policies s) (hw : s.worker = .running .service) (purpose : Purpose)
    (plan : List (PoolKey × ℤ)) (halone : ∀ w, purpose = .mutation w → ∀ f ∈ s.stack, f.mutation = none) :
    Custody policies (s.entering purpose plan) := by
  have hseen := h.slots_seen
  obtain ⟨p, lease, awaiter, worker, stack, calls⟩ := s
  subst hw
  exact { h with
    early := fun he => nomatch (h.early he).1
    idle := nofun
    seen := hseen
    alone := fun w hw => halone w (Option.some.inj hw) }

end Custody

theorem nodup_insert {α : Type} {a : α} {as bs : List α} (h : (as ++ bs).Nodup) (ha : a ∉ as ++ bs) :
    (as ++ [a] ++ bs).Nodup := by
  rw [List.append_assoc, List.singleton_append, List.nodup_middle]
  exact List.nodup_cons.mpr ⟨ha, h⟩

theorem move_custody (h : Custody policies s) (hmove : Move s t) : Custody policies t := by
  obtain ⟨p, lease, awaiter, worker, stack, calls⟩ := s
  cases hmove with
  | clock now hnow => exact { h with sound := h.sound.tick hnow }
  | rival k r pools hrival =>
      obtain ⟨hsound, hkeeps, haccounts⟩ := Pools.rival_spec h.sound hrival
      exact h.keeps hsound hkeeps haccounts
  | acquired k weight todo slots ticket slot pools ha hreserve =>
      obtain ⟨hsound, hkeeps, hnew, haccounts, _⟩ := Pools.reserve_some h.sound hreserve
      subst ha
      have hfresh := h.fresh hnew
      refine { h with sound := hsound, listed := ?_, known := ?_, apart := ?_, early := h.early }
      · refine h.listed.granted hkeeps haccounts (fun y hy => ?_) ?_
        · simp only [holders, Awaiter.gathers, List.mem_append] at hy ⊢
          tauto
        · simp [holders, Awaiter.gathers]
      · intro y hy
        simp only [mine, Awaiter.gathers, ← List.append_assoc] at hy
        rcases List.mem_append.mp hy with hold | hnew'
        · exact (hkeeps y (h.known y hold)).1
        · rw [List.mem_singleton.mp hnew', haccounts, Function.update_self]
          rfl
      · have happart := h.apart.append (List.nodup_singleton (k, slot)) (List.disjoint_singleton.mpr hfresh)
        simpa only [mine, Awaiter.gathers, List.append_assoc] using happart
  | refused k weight todo slots ticket pools ha hreserve =>
      obtain ⟨hsound, hkeeps, haccounts⟩ := Pools.reserve_none h.sound hreserve
      exact h.keeps hsound hkeeps haccounts
  | failed todo slots ha => subst ha; exact { h with early := h.early }
  | leased slots ha =>
      subst ha
      obtain ⟨rfl, rfl⟩ := h.early rfl
      obtain rfl := h.idle rfl
      exact {
        sound := h.sound
        listed := by
          refine h.listed.mono (fun x hx => ?_)
          change x ∈ slots ++ [] ++ [] ++ [] at hx
          change x ∈ slots ++ [] ++ []
          simpa only [List.append_nil] using hx
        known := by change ∀ x ∈ slots ++ [], _; rw [List.append_nil]; exact h.known
        apart := by change (slots ++ []).Nodup; rw [List.append_nil]; exact h.apart
        idle := fun _ => rfl
        early := nofun
        clears := fun x hx => hx
        scopes := trivial
        seen := nofun
        shielded := rfl
        sole := .nil
        alone := nofun }
  | dropped x rest ha =>
      subst ha
      have hholders : ∀ y ∈ holders ⟨p, lease, .failing (x :: rest), worker, stack, calls⟩, y ≠ x →
          y ∈ holders ⟨p.release x, lease, .failing rest, worker, stack, calls⟩ := by
        intro y hy hne
        simp only [holders, Awaiter.gathers, List.mem_append, List.mem_cons] at hy ⊢
        tauto
      obtain ⟨hsound, hlisted, hknown, hapart⟩ :=
        h.release rfl hholders ((List.sublist_cons_self x rest).append_left _)
      exact { h with sound := hsound, listed := hlisted, known := hknown, apart := hapart, early := h.early }
  | raised ha => subst ha; exact { h with early := nofun }
  | cancelled ha hlock => subst ha; exact { h with early := nofun }
  | spared x rest ha hx =>
      subst ha
      have hactive : worker.active = true := by
        by_contra hidle
        obtain rfl := h.idle (Bool.not_eq_true _ ▸ hidle)
        rw [h.shielded] at hx
        cases hx
      -- The worker that is inside the lease will release what is protected.
      have hclears : worker.clears lease = lease.slots := by
        cases worker with
        | running task => rfl
        | _ => cases hactive
      have hslot : x ∈ lease.slots := h.clears x List.mem_cons_self
      refine { h with
        listed := h.listed.mono (fun y hy => ?_)
        early := nofun
        clears := fun y hy => h.clears y (List.mem_cons_of_mem x hy) }
      simp only [holders, Awaiter.gathers, Awaiter.clears, hclears, List.mem_append, List.mem_cons] at hy ⊢
      rcases hy with ((hy | rfl | hy) | hy) | hy <;> tauto
  | withdrawn x rest ha hx =>
      subst ha
      have hholders : ∀ y ∈ holders ⟨p, lease, .cancelling (x :: rest), worker, stack, calls⟩, y ≠ x →
          y ∈ holders ⟨p.release x, lease, .cancelling rest, worker, stack, calls⟩ := by
        intro y hy hne
        simp only [holders, Awaiter.clears, List.mem_append, List.mem_cons] at hy ⊢
        tauto
      obtain ⟨hsound, hlisted, hknown, hapart⟩ := h.release rfl hholders (List.Sublist.refl _)
      exact { h with
        sound := hsound
        listed := hlisted
        known := hknown
        apart := hapart
        early := nofun
        clears := fun y hy => h.clears y (List.mem_cons_of_mem x hy) }
  | returned ha => subst ha; exact { h with early := nofun }
  | rejected hw => subst hw; exact { h with early := fun he => nomatch (h.early he).1 }
  | begun hw hopen =>
      subst hw
      refine { h with
        listed := h.listed.mono (fun y hy => ?_)
        idle := nofun
        early := fun he => nomatch (h.early he).1 }
      simp only [holders, List.mem_append] at hy ⊢
      rcases hy with (hy | hy) | hy
      · exact .inl (.inl hy)
      · cases hy
      · exact .inr hy
  | borrowed purpose plan todo slots owned k weight slot hw hslot hleft =>
      subst hw
      exact { h with early := fun he => nomatch (h.early he).1 }
  | lacked purpose plan todo slots owned k weight hw hless =>
      subst hw
      exact { h with early := fun he => nomatch (h.early he).1 }
  | entered purpose plan slots owned hw =>
      subst hw
      cases purpose with
      | mutation w =>
          exact { h with
            early := fun he => nomatch (h.early he).1
            idle := nofun
            scopes := ⟨h.seen, h.scopes⟩
            seen := nofun
            shielded := h.shielded.trans (Finset.empty_union _).symm
            sole := List.pairwise_cons.mpr ⟨fun g hg => .inr (h.alone w rfl g hg), h.sole⟩
            alone := nofun }
      | scope | call k | perform k =>
          exact { h with
            early := fun he => nomatch (h.early he).1
            idle := nofun
            scopes := ⟨h.seen, h.scopes⟩
            seen := nofun
            shielded := h.shielded.trans (Finset.empty_union _).symm
            sole := List.pairwise_cons.mpr ⟨fun _ _ => .inl rfl, h.sole⟩
            alone := nofun }
  | granted purpose plan todo slots held k weight slot pools hw hreserve =>
      subst hw
      obtain ⟨hsound, hkeeps, hnew, haccounts, _⟩ := Pools.reserve_some h.sound hreserve
      have hfresh := h.fresh hnew
      refine { h with
        sound := hsound
        listed := ?_
        known := ?_
        apart := ?_
        early := fun he => nomatch (h.early he).1
        seen := ?_ }
      · refine h.listed.granted hkeeps haccounts (fun y hy => ?_) ?_
        · simp only [holders, Worker.task, Task.owned, Worker.clears, List.mem_append] at hy ⊢
          tauto
        · simp [holders, Worker.task, Task.owned]
      · intro y hy
        by_cases hyx : y = (k, slot)
        · rw [hyx, haccounts, Function.update_self]
          rfl
        · refine (hkeeps y (h.known y ?_)).1
          simp only [mine, Worker.task, Task.owned, List.mem_append, List.mem_singleton] at hy ⊢
          tauto
      · have happart : (held ++ (owned stack ++ lease.slots ++ awaiter.gathers)).Nodup := by
          simpa only [mine, Worker.task, Task.owned, List.append_assoc] using h.apart
        have hnot : (k, slot) ∉ held ++ (owned stack ++ lease.slots ++ awaiter.gathers) := by
          simpa only [mine, Worker.task, Task.owned, List.append_assoc] using hfresh
        simpa only [mine, Worker.task, Task.owned, List.append_assoc] using nodup_insert happart hnot
      · intro k' slot' hslot
        simp only [Worker.task, Task.slots, Task.owned, List.mem_append, List.mem_singleton] at hslot ⊢
        by_cases hk : k' = k
        · subst hk
          rw [Function.update_self] at hslot
          cases hslot
          tauto
        · rw [Function.update_of_ne hk] at hslot
          have hold := h.seen k' slot' hslot
          simp only [Worker.task, Task.owned, List.mem_append] at hold
          tauto
  | denied purpose plan todo slots owned k weight pools hw hreserve =>
      subst hw
      obtain ⟨hsound, hkeeps, haccounts⟩ := Pools.reserve_none h.sound hreserve
      exact { h.keeps hsound hkeeps haccounts with
        early := fun he => nomatch (h.early he).1
        seen := nofun
        alone := nofun }
  | barred purpose hw hlock hbarred =>
      subst hw
      exact { h with
        early := fun he => nomatch (h.early he).1
        alone := nofun }
  | untimed purpose hw hlock hkey hpermits =>
      subst hw
      exact { h with
        early := fun he => nomatch (h.early he).1
        alone := nofun }
  | called purpose k slot pools hw hlock hkey hpermits hslot hstart =>
      subst hw
      obtain ⟨hleft, hsound, _, hother, haccounts⟩ := Pools.start_true h.sound hstart
      have howned : owned (stack.map (Frame.record k)) = owned stack := owned_record k stack
      exact {
        sound := hsound
        listed := by
          have hlisted := h.listed.started hleft hother haccounts
          simpa only [holders, Worker.task, Task.owned, Worker.clears, howned] using hlisted
        known := by
          intro y hy
          rw [haccounts]
          refine h.known y ?_
          simpa only [mine, Worker.task, Task.owned, howned] using hy
        apart := by
          have happart := h.apart
          simpa only [mine, Worker.task, Task.owned, howned] using happart
        idle := nofun
        early := fun he => nomatch (h.early he).1
        clears := h.clears
        scopes := scoped_record k h.scopes
        seen := nofun
        shielded := h.shielded.trans (guards_record k stack).symm
        sole := sole_record h.sole
        alone := nofun }
  | misfired purpose k slot pools hw hkey hslot hstart =>
      subst hw
      obtain ⟨rfl, _⟩ := Pools.start_false h.sound hstart
      exact { h with
        early := fun he => nomatch (h.early he).1
        alone := nofun }
  | released x rest hw =>
      subst hw
      have hholders : ∀ y ∈ holders ⟨p, lease, awaiter, .running (.releasing (x :: rest)), stack, calls⟩, y ≠ x →
          y ∈ holders ⟨p.release x, lease, awaiter, .running (.releasing rest), stack, calls⟩ := by
        intro y hy hne
        simp only [holders, Worker.task, Task.owned, Worker.clears, List.mem_append, List.mem_cons] at hy ⊢
        tauto
      obtain ⟨hsound, hlisted, hknown, hapart⟩ := h.release rfl hholders (List.sublist_cons_self x _)
      exact { h with
        sound := hsound
        listed := hlisted
        known := hknown
        apart := hapart
        early := fun he => nomatch (h.early he).1
        seen := nofun
        alone := nofun }
  | resumed hw => subst hw; exact { h with early := fun he => nomatch (h.early he).1 }
  | cleared x rest hw =>
      subst hw
      have hholders : ∀ y ∈ holders ⟨p, lease, awaiter, .finishing (x :: rest), stack, calls⟩, y ≠ x →
          y ∈ holders ⟨p.release x, lease, awaiter, .finishing rest, stack, calls⟩ := by
        intro y hy hne
        simp only [holders, Worker.task, Worker.clears, List.mem_append, List.mem_cons] at hy ⊢
        tauto
      obtain ⟨hsound, hlisted, hknown, hapart⟩ := h.release rfl hholders (List.Sublist.refl _)
      exact { h with
        sound := hsound
        listed := hlisted
        known := hknown
        apart := hapart
        early := fun he => nomatch (h.early he).1 }
  | ended hw => subst hw; exact { h with early := fun he => nomatch (h.early he).1 }
  | reserve requests bundle hw hplan => exact h.entering hw _ _ nofun
  | uncounted hw => subst hw; exact { h with early := fun he => nomatch (h.early he).1 }
  | call operation args k bundle hw hplan hfree => exact h.entering hw _ _ nofun
  | mutate w bundle hw hplan hfree => exact h.entering hw _ _ (fun _ _ => hfree)
  | shielded f m below hw hs hf hm hlock hopen =>
      subst hw hs
      have hguards : f.guards = ∅ := by
        rw [Frame.guards_of_mutation hf]
        unfold Mutation.guards
        rw [hm]
      exact { h with
        early := fun he => nomatch (h.early he).1
        idle := nofun
        shielded := by
          change lease.protectedKeys ∪ m.keys = m.keys ∪ guards below
          rw [h.shielded, guards_cons, hguards, Finset.empty_union, Finset.union_comm]
        sole := List.pairwise_cons.mpr ⟨fun g hg => .inr (h.sole.below hf g hg), h.sole.of_cons⟩
        alone := nofun }
  | perform f m below operation args rest k bundle hw hs hf hm hplan => exact h.entering hw _ _ nofun
  | skip f m below c rest hw hs hf hm =>
      subst hw hs
      have hguards : f.guards = m.keys := by
        rw [Frame.guards_of_mutation hf]
        unfold Mutation.guards
        rw [hm]
      exact { h with
        early := fun he => nomatch (h.early he).1
        idle := nofun
        shielded := by
          change lease.protectedKeys = m.keys ∪ guards below
          rw [h.shielded, guards_cons, hguards]
        sole := List.pairwise_cons.mpr ⟨fun g hg => .inr (h.sole.below hf g hg), h.sole.of_cons⟩
        alone := nofun }
  | unshielded f m below rest hw hs hf hm hlock =>
      subst hw hs
      have hguards : f.guards = m.keys := by
        rw [Frame.guards_of_mutation hf]
        unfold Mutation.guards
        rw [hm]
      exact { h with
        early := fun he => nomatch (h.early he).1
        idle := nofun
        shielded := by
          change lease.protectedKeys \ m.keys = ∅ ∪ guards below
          rw [h.shielded, guards_cons, hguards, guards_eq_empty (h.sole.below hf), Finset.union_empty, Finset.sdiff_self,
            Finset.empty_union]
        sole := List.pairwise_cons.mpr ⟨fun g hg => .inr (h.sole.below hf g hg), h.sole.of_cons⟩
        alone := nofun }
  | leave f below hw hs hplain =>
      subst hw hs
      have hguards : f.guards = ∅ := by
        unfold Frame.guards
        cases hf : f.mutation with
        | none => rfl
        | some m =>
            cases hm : m.stage with
            | guarded rest => exact absurd hm (hplain m hf rest)
            | reserved | unguarded => simp [Mutation.guards, hm]
      exact { h with
        early := fun he => nomatch (h.early he).1
        idle := nofun
        scopes := h.scopes.2
        seen := nofun
        shielded := by
          change lease.protectedKeys = guards below
          rw [h.shielded, guards_cons, hguards, Finset.empty_union]
        sole := h.sole.of_cons
        alone := nofun }
  | finish hw hs hlock =>
      subst hw hs
      exact { h with
        early := fun he => nomatch (h.early he).1
        idle := fun _ => rfl }

end Sys

end MoomooMcp.BrokerDispatch
