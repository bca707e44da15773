import MoomooMcp.BrokerDispatch
import MoomooMcp.Quota

namespace MoomooMcp.BrokerDispatch

open RateLimit

/-- What became of a reservation: the calls it was granted, those that were started, and
what it returned to its pool whenever it returned anything. -/
structure Account where
  granted : ℤ
  started : ℤ
  returned : List ℤ

/-- The limiters of all pools. `starts` are the times of all calls started from a pool, and
`accounts` the reservations of one dispatch. The code keeps neither. -/
structure Pools (β : Type) where
  limiters : PoolKey → Limiter β
  clock : ℚ
  starts : PoolKey → List ℚ
  accounts : PoolKey × ℕ → Option Account

/-- An operation on a pool by some other caller. -/
inductive Rival
  | queue (tickets : List ℕ)
  | prune
  | reserve (weight : ℤ) (ticket : Option ℕ)
  | start (slot : ℕ)
  | release (slot : ℕ)

namespace Pools

variable {β : Type} {p q : Pools β} {k : PoolKey} {l : Limiter β} {x y : PoolKey × ℕ}

def set (p : Pools β) (k : PoolKey) (l : Limiter β) : Pools β :=
  { p with limiters := Function.update p.limiters k l }

def remaining (p : Pools β) (x : PoolKey × ℕ) : ℤ := (p.limiters x.1).remaining x.2

/-- The accounts after one of them changed. -/
def note (p : Pools β) (x : PoolKey × ℕ) (f : Account → Account) : PoolKey × ℕ → Option Account :=
  Function.update p.accounts x ((p.accounts x).map f)

theorem note_cases {f : Account → Account} {a : Account} (h : p.note x f y = some a) :
    (y = x ∧ ∃ b, p.accounts y = some b ∧ a = f b) ∨ (y ≠ x ∧ p.accounts y = some a) := by
  by_cases hy : y = x
  · subst hy
    unfold note at h
    rw [Function.update_self] at h
    obtain ⟨b, hb, rfl⟩ := Option.map_eq_some_iff.mp h
    exact .inl ⟨rfl, b, hb, rfl⟩
  · unfold note at h
    rw [Function.update_of_ne hy] at h
    exact .inr ⟨hy, h⟩

theorem opened_cases {accounts : PoolKey × ℕ → Option Account} {a b : Account}
    (h : Function.update accounts x (some b) y = some a) : (y = x ∧ a = b) ∨ (y ≠ x ∧ accounts y = some a) := by
  by_cases hy : y = x
  · rw [hy, Function.update_self] at h
    exact .inl ⟨hy, (Option.some.inj h).symm⟩
  · rw [Function.update_of_ne hy] at h
    exact .inr ⟨hy, h⟩

theorem note_isSome (f : Account → Account) : (p.note x f y).isSome = (p.accounts y).isSome := by
  unfold note
  by_cases hy : y = x
  · rw [hy, Function.update_self, Option.isSome_map]
  · rw [Function.update_of_ne hy]

/-- The reservations of the dispatch are as they were. -/
def Keeps (p q : Pools β) : Prop := ∀ x, (p.accounts x).isSome → (q.accounts x).isSome ∧ q.remaining x = p.remaining x

theorem remaining_set_of_ne (h : y.1 ≠ k) : (p.set k l).remaining y = p.remaining y :=
  congrArg (fun l => l.remaining y.2) (Function.update_of_ne h l p.limiters)

theorem remaining_set_self (slot : ℕ) : (p.set k l).remaining (k, slot) = l.remaining slot :=
  congrArg (fun l => l.remaining slot) (Function.update_self k l p.limiters)

theorem Keeps.refl (p : Pools β) : Keeps p p := fun _ hx => ⟨hx, rfl⟩

theorem keeps_set (h : ∀ slot, (p.accounts (k, slot)).isSome → l.remaining slot = (p.limiters k).remaining slot) :
    Keeps p (p.set k l) := by
  intro x hx
  refine ⟨hx, ?_⟩
  by_cases hk : x.1 = k
  · subst hk
    exact (remaining_set_self x.2).trans (h x.2 hx)
  · exact remaining_set_of_ne hk

theorem set_starts_self : { p.set k l with starts := Function.update p.starts k (p.starts k) } = p.set k l := by
  rw [Function.update_eq_self]
  rfl

variable [InMemoryBucket β]

def init (policies : PoolKey → RateLimitPolicy) (clock : ℚ) : Pools β :=
  ⟨fun k => .new (policies k), clock, fun _ => [], fun _ => none⟩

/-- Reserve for the dispatch. -/
def reserve (p : Pools β) (k : PoolKey) (weight : ℤ) (ticket : Option ℕ) : Option ℕ × Pools β :=
  match (p.limiters k).tryReserve weight ticket p.clock with
  | (.reserved slot, l) =>
    (some slot, { p.set k l with accounts := Function.update p.accounts (k, slot) (some ⟨weight, 0, []⟩) })
  | (_, l) => (none, p.set k l)

/-- Start a call of a reservation of the dispatch. -/
def start (p : Pools β) (x : PoolKey × ℕ) : Bool × Pools β :=
  match (p.limiters x.1).start x.2 p.clock with
  | (.ok (), l) =>
    (true, { p.set x.1 l with
      starts := Function.update p.starts x.1 (p.starts x.1 ++ [p.clock])
      accounts := p.note x (fun a => { a with started := a.started + 1 }) })
  | (.error _, l) => (false, p.set x.1 l)

/-- Release a reservation of the dispatch. -/
def release (p : Pools β) (x : PoolKey × ℕ) : Pools β :=
  { p.set x.1 ((p.limiters x.1).release x.2) with
    accounts := if p.remaining x = 0 then p.accounts
      else p.note x (fun a => { a with returned := a.returned ++ [p.remaining x] }) }

/-- Others have no hold of the reservations of the dispatch. -/
def rival (p : Pools β) (k : PoolKey) : Rival → Option (Pools β)
  | .queue tickets => some (p.set k { p.limiters k with waiters := tickets })
  | .prune => some (p.set k ((p.limiters k).prune p.clock))
  | .reserve weight ticket => some (p.set k ((p.limiters k).tryReserve weight ticket p.clock).2)
  | .start slot =>
    if (p.accounts (k, slot)).isSome ∨ (p.limiters k).issued ≤ slot then none
    else
      match (p.limiters k).start slot p.clock with
      | (.ok (), l) => some { p.set k l with starts := Function.update p.starts k (p.starts k ++ [p.clock]) }
      | (.error _, l) => some (p.set k l)
  | .release slot =>
    if (p.accounts (k, slot)).isSome ∨ (p.limiters k).issued ≤ slot then none
    else some (p.set k ((p.limiters k).release slot))

/-- What holds of the pools, whoever uses them. -/
structure Sound (policies : PoolKey → RateLimitPolicy) (p : Pools β) : Prop where
  kept : ∀ k, Kept (policies k) (p.starts k) p.clock (p.limiters k)
  issued : ∀ x a, p.accounts x = some a → x.2 < (p.limiters x.1).issued
  balance : ∀ x a, p.accounts x = some a → a.granted = a.started + a.returned.sum + p.remaining x
  once : ∀ x a, p.accounts x = some a → a.returned.length ≤ 1 ∧ (a.returned ≠ [] → p.remaining x = 0)

variable {policies : PoolKey → RateLimitPolicy}

theorem Sound.tick {now : ℚ} (h : Sound policies p) (hnow : p.clock ≤ now) : Sound policies { p with clock := now } :=
  { h with kept := fun k => (h.kept k).tick hnow }

/-- A reservation with nothing left starts no call. -/
theorem start_spent (h : Sound policies p) (hspent : p.remaining x = 0) : p.start x = (false, p) := by
  have hnot : x.2 ∉ (p.limiters x.1).pending := fun hmem => (h.kept x.1).mem_iff.mp hmem hspent
  have hset : p.set x.1 (p.limiters x.1) = p := by
    unfold set
    rw [Function.update_eq_self]
  unfold start
  rw [Limiter.start_not_pending hnot]
  exact congrArg (Prod.mk false) hset

section Change

variable [LawfulBucket β] {starts' : List ℚ}

theorem Sound.kept_change (h : Sound policies p) (hchange : Change p.clock (p.limiters k) (p.starts k) l starts')
    (k' : PoolKey) :
    Kept (policies k') (Function.update p.starts k starts' k') p.clock (Function.update p.limiters k l k') := by
  by_cases hk : k' = k
  · subst hk
    rw [Function.update_self, Function.update_self]
    exact hchange.kept (h.kept k')
  · rw [Function.update_of_ne hk, Function.update_of_ne hk]
    exact h.kept k'

theorem Sound.issued_change (h : Sound policies p) (hchange : Change p.clock (p.limiters k) (p.starts k) l starts')
    {a : Account} (ha : p.accounts x = some a) : x.2 < (Function.update p.limiters k l x.1).issued := by
  by_cases hk : x.1 = k
  · subst hk
    rw [Function.update_self]
    exact (hchange.remaining_le (h.kept x.1) (h.issued x a ha)).2
  · rw [Function.update_of_ne hk]
    exact h.issued x a ha

/-- An operation on a pool that leaves the reservations of the dispatch alone. -/
theorem Sound.set (h : Sound policies p) (hchange : Change p.clock (p.limiters k) (p.starts k) l starts')
    (hkeeps : ∀ slot, (p.accounts (k, slot)).isSome → l.remaining slot = (p.limiters k).remaining slot) :
    Sound policies { p.set k l with starts := Function.update p.starts k starts' } where
  kept := h.kept_change hchange
  issued x a ha := h.issued_change hchange ha
  balance x a ha := by
    have hsame := (keeps_set hkeeps x (Option.isSome_of_mem ha)).2
    exact (h.balance x a ha).trans (congrArg _ hsame.symm)
  once x a ha := by
    have hsame := (keeps_set hkeeps x (Option.isSome_of_mem ha)).2
    exact ⟨(h.once x a ha).1, fun hreturned => hsame.trans ((h.once x a ha).2 hreturned)⟩

theorem sound_init (clock : ℚ) : Sound policies (init policies clock : Pools β) where
  kept k := Kept.new (policies k) clock
  issued _ _ ha := nomatch ha
  balance _ _ ha := nomatch ha
  once _ _ ha := nomatch ha

variable {weight : ℤ} {ticket : Option ℕ}

theorem reserve_cases (h : Sound policies p) :
    (∃ q, p.reserve k weight ticket = (none, q) ∧ Sound policies q ∧ Keeps p q ∧ q.accounts = p.accounts) ∨
    (∃ slot q, p.reserve k weight ticket = (some slot, q) ∧ Sound policies q ∧ Keeps p q ∧
      p.accounts (k, slot) = none ∧
      q.accounts = Function.update p.accounts (k, slot) (some ⟨weight, 0, []⟩) ∧ q.remaining (k, slot) = weight) := by
  have hchange : Change p.clock (p.limiters k) (p.starts k) ((p.limiters k).tryReserve weight ticket p.clock).2
      (p.starts k) := .reserve weight ticket
  rcases Limiter.tryReserve_cases weight ticket p.clock (p.limiters k) with ⟨hnone, hlimiter⟩ | ⟨hfree, hreserved⟩
  · left
    have hsame : ((p.limiters k).tryReserve weight ticket p.clock).2.remaining = (p.limiters k).remaining := by
      rcases hlimiter with hlimiter | hlimiter
      · rw [hlimiter]
      · rw [hlimiter]
        rfl
    refine ⟨p.set k ((p.limiters k).tryReserve weight ticket p.clock).2, ?_, ?_, keeps_set fun slot _ => ?_, rfl⟩
    · unfold reserve
      split
      · rename_i slot _ heq
        exact absurd (congrArg Prod.fst heq) (hnone slot)
      · rename_i heq
        rw [heq]
    · rw [← set_starts_self]
      exact h.set hchange (fun slot _ => congrFun hsame slot)
    · exact congrFun hsame slot
  · right
    have hnew : p.accounts (k, (p.limiters k).issued) = none := by
      cases ha : p.accounts (k, (p.limiters k).issued) with
      | none => rfl
      | some a => exact absurd (h.issued _ a ha) (lt_irrefl _)
    have hbook : ∀ slot, (p.accounts (k, slot)).isSome →
        (((p.limiters k).prune p.clock).book weight).remaining slot = (p.limiters k).remaining slot := by
      intro slot hslot
      refine Function.update_of_ne ?_ _ _
      rintro rfl
      rw [show ((p.limiters k).prune p.clock).issued = (p.limiters k).issued from rfl, hnew] at hslot
      cases hslot
    rw [hreserved] at hchange
    have hset := h.set hchange hbook
    rw [set_starts_self] at hset
    have hleft : (p.set k (((p.limiters k).prune p.clock).book weight)).remaining (k, (p.limiters k).issued) = weight :=
      (remaining_set_self _).trans (Function.update_self _ _ _)
    refine ⟨(p.limiters k).issued, { p.set k (((p.limiters k).prune p.clock).book weight) with
      accounts := Function.update p.accounts (k, (p.limiters k).issued) (some ⟨weight, 0, []⟩) }, ?_, ?_, fun x hx => ?_,
      hnew, rfl, hleft⟩
    · unfold reserve
      rw [hreserved]
    · refine ⟨hset.kept, fun x a ha => ?_, fun x a ha => ?_, fun x a ha => ?_⟩ <;>
        rcases opened_cases ha with ⟨rfl, rfl⟩ | ⟨_, hold⟩
      · change (p.limiters k).issued < (Function.update p.limiters k _ k).issued
        rw [Function.update_self]
        exact Nat.lt_succ_self _
      · exact hset.issued x a hold
      · change weight = 0 + 0 + _
        rw [zero_add, zero_add]
        exact hleft.symm
      · exact hset.balance x a hold
      · exact ⟨Nat.zero_le _, fun hne => absurd rfl hne⟩
      · exact hset.once x a hold
    · refine ⟨?_, (keeps_set hbook x hx).2⟩
      have hne : x ≠ (k, (p.limiters k).issued) := by
        rintro rfl
        rw [hnew] at hx
        cases hx
      change (Function.update p.accounts _ _ x).isSome
      rwa [Function.update_of_ne hne]

/-- A call of a reservation that has one left starts, whoever else uses the pool. -/
theorem start_left (h : Sound policies p) (hleft : p.remaining x ≠ 0) :
    ∃ q, p.start x = (true, q) ∧ Sound policies q ∧ q.remaining x = p.remaining x - 1 ∧
      (∀ y, y ≠ x → q.remaining y = p.remaining y) ∧ ∀ y, (q.accounts y).isSome = (p.accounts y).isSome := by
  obtain ⟨l, hstart, hkept, hremaining, _⟩ := (h.kept x.1).start ((h.kept x.1).mem_iff.mpr hleft)
  have hchange : Change p.clock (p.limiters x.1) (p.starts x.1) l (p.starts x.1 ++ [p.clock]) := .started x.2 l hstart
  have hself : (p.set x.1 l).remaining x = p.remaining x - 1 := by
    refine (remaining_set_self x.2).trans ?_
    rw [hremaining, Function.update_self]
    rfl
  have hother : ∀ y, y ≠ x → (p.set x.1 l).remaining y = p.remaining y := by
    intro y hy
    by_cases hk : y.1 = x.1
    · have hslot : y.2 ≠ x.2 := fun hslot => hy (Prod.ext hk hslot)
      have hset : (p.set x.1 l).remaining (x.1, y.2) = (p.limiters x.1).remaining y.2 := by
        rw [remaining_set_self, hremaining, Function.update_of_ne hslot]
      rw [← hk] at hset ⊢
      exact hset
    · exact remaining_set_of_ne hk
  refine ⟨{ p.set x.1 l with
    starts := Function.update p.starts x.1 (p.starts x.1 ++ [p.clock])
    accounts := p.note x (fun a => { a with started := a.started + 1 }) }, ?_, ?_, hself, hother, fun y => note_isSome _⟩
  · unfold start
    rw [hstart]
  · refine ⟨h.kept_change hchange, fun y a ha => ?_, fun y a ha => ?_, fun y a ha => ?_⟩ <;>
      rcases note_cases ha with ⟨rfl, b, hb, rfl⟩ | ⟨hy, hb⟩
    · exact h.issued_change hchange hb
    · exact h.issued_change hchange hb
    · have hbalance := h.balance y b hb
      change b.granted = b.started + 1 + b.returned.sum + (p.set y.1 l).remaining y
      rw [hself]
      omega
    · exact (h.balance y a hb).trans (congrArg _ (hother y hy).symm)
    · exact ⟨(h.once y b hb).1, fun hreturned => absurd ((h.once y b hb).2 hreturned) hleft⟩
    · exact ⟨(h.once y a hb).1, fun hreturned => (hother y hy).trans ((h.once y a hb).2 hreturned)⟩

theorem start_true (h : Sound policies p) (hstart : p.start x = (true, q)) :
    p.remaining x ≠ 0 ∧ Sound policies q ∧ q.remaining x = p.remaining x - 1 ∧
      (∀ y, y ≠ x → q.remaining y = p.remaining y) ∧ ∀ y, (q.accounts y).isSome = (p.accounts y).isSome := by
  by_cases hleft : p.remaining x = 0
  · rw [start_spent h hleft] at hstart
    cases hstart
  · obtain ⟨q', hq, hspec⟩ := start_left h hleft
    rw [hq] at hstart
    cases hstart
    exact ⟨hleft, hspec⟩

theorem start_false (h : Sound policies p) (hstart : p.start x = (false, q)) : q = p ∧ p.remaining x = 0 := by
  by_cases hleft : p.remaining x = 0
  · rw [start_spent h hleft] at hstart
    cases hstart
    exact ⟨rfl, hleft⟩
  · obtain ⟨q', hq, _⟩ := start_left h hleft
    rw [hq] at hstart
    cases hstart

theorem reserve_none (h : Sound policies p) (hreserve : p.reserve k weight ticket = (none, q)) :
    Sound policies q ∧ Keeps p q ∧ q.accounts = p.accounts := by
  rcases reserve_cases h with ⟨q', hq, hspec⟩ | ⟨slot, q', hq, _⟩
  · rw [hq] at hreserve
    cases hreserve
    exact hspec
  · rw [hq] at hreserve
    cases hreserve

theorem reserve_some {slot : ℕ} (h : Sound policies p) (hreserve : p.reserve k weight ticket = (some slot, q)) :
    Sound policies q ∧ Keeps p q ∧ p.accounts (k, slot) = none ∧
      q.accounts = Function.update p.accounts (k, slot) (some ⟨weight, 0, []⟩) ∧ q.remaining (k, slot) = weight := by
  rcases reserve_cases h with ⟨q', hq, _⟩ | ⟨slot', q', hq, hspec⟩
  · rw [hq] at hreserve
    cases hreserve
  · rw [hq] at hreserve
    cases hreserve
    exact hspec

/-- A release returns what is left, and nothing the second time. -/
theorem release_spec (h : Sound policies p) : Sound policies (p.release x) ∧ (p.release x).remaining x = 0 ∧
    (∀ y, y ≠ x → (p.release x).remaining y = p.remaining y) ∧
    ∀ y, ((p.release x).accounts y).isSome = (p.accounts y).isSome := by
  have hchange : Change p.clock (p.limiters x.1) (p.starts x.1) ((p.limiters x.1).release x.2) (p.starts x.1) :=
    .release x.2
  have hself : (p.release x).remaining x = 0 := (remaining_set_self x.2).trans (Function.update_self _ _ _)
  have hother : ∀ y, y ≠ x → (p.release x).remaining y = p.remaining y := by
    intro y hy
    by_cases hk : y.1 = x.1
    · have hslot : y.2 ≠ x.2 := fun hslot => hy (Prod.ext hk hslot)
      have hset : (p.set x.1 ((p.limiters x.1).release x.2)).remaining (x.1, y.2) = (p.limiters x.1).remaining y.2 :=
        (remaining_set_self y.2).trans (Function.update_of_ne hslot _ _)
      rw [← hk] at hset
      have hrelease : (p.release x).remaining y = (p.set y.1 ((p.limiters y.1).release x.2)).remaining y := by
        rw [hk]
        rfl
      exact hrelease.trans hset
    · exact remaining_set_of_ne hk
  have hkept := h.kept_change hchange
  rw [Function.update_eq_self] at hkept
  by_cases hleft : p.remaining x = 0
  · have haccounts : (p.release x).accounts = p.accounts := if_pos hleft
    have hsame : ∀ y, (p.release x).remaining y = p.remaining y := by
      intro y
      by_cases hy : y = x
      · rw [hy, hself, hleft]
      · exact hother y hy
    refine ⟨⟨hkept, fun y a ha => ?_, fun y a ha => ?_, fun y a ha => ?_⟩, hself, hother, fun y => ?_⟩
    · exact h.issued_change hchange (haccounts ▸ ha)
    · rw [hsame]
      exact h.balance y a (haccounts ▸ ha)
    · rw [hsame]
      exact h.once y a (haccounts ▸ ha)
    · rw [haccounts]
  · have haccounts : (p.release x).accounts = p.note x (fun a => { a with returned := a.returned ++ [p.remaining x] }) :=
      if_neg hleft
    refine ⟨⟨hkept, fun y a ha => ?_, fun y a ha => ?_, fun y a ha => ?_⟩, hself, hother, fun y => ?_⟩
    · rcases note_cases (haccounts ▸ ha) with ⟨rfl, b, hb, _⟩ | ⟨_, hb⟩ <;> exact h.issued_change hchange hb
    · rcases note_cases (haccounts ▸ ha) with ⟨rfl, b, hb, rfl⟩ | ⟨hy, hb⟩
      · have hbalance := h.balance y b hb
        change b.granted = b.started + (b.returned ++ [p.remaining y]).sum + (p.release y).remaining y
        rw [hself, List.sum_append, List.sum_singleton]
        omega
      · rw [hother y hy]
        exact h.balance y a hb
    · rcases note_cases (haccounts ▸ ha) with ⟨rfl, b, hb, rfl⟩ | ⟨hy, hb⟩
      · -- It returned nothing yet, as it had calls left.
        have hnone : b.returned = [] := by
          by_contra hreturned
          exact hleft ((h.once y b hb).2 hreturned)
        simp only [hnone, List.nil_append, List.length_singleton]
        exact ⟨le_refl 1, fun _ => hself⟩
      · rw [hother y hy]
        exact h.once y a hb
    · rw [haccounts, note_isSome]

theorem rival_spec {r : Rival} (h : Sound policies p) (hrival : p.rival k r = some q) :
    Sound policies q ∧ Keeps p q ∧ q.accounts = p.accounts := by
  have hset : ∀ {l : Limiter β}, Change p.clock (p.limiters k) (p.starts k) l (p.starts k) →
      (∀ slot, (p.accounts (k, slot)).isSome → l.remaining slot = (p.limiters k).remaining slot) →
      Sound policies (p.set k l) ∧ Keeps p (p.set k l) ∧ (p.set k l).accounts = p.accounts := by
    intro l hchange hkeeps
    have hsound := h.set hchange hkeeps
    rw [set_starts_self] at hsound
    exact ⟨hsound, keeps_set hkeeps, rfl⟩
  cases r with
  | queue tickets =>
      cases hrival
      exact hset (.queue tickets) (fun _ _ => rfl)
  | prune =>
      cases hrival
      exact hset .prune (fun _ _ => rfl)
  | reserve weight ticket =>
      cases hrival
      apply hset (.reserve weight ticket)
      intro slot hslot
      rcases Limiter.tryReserve_cases weight ticket p.clock (p.limiters k) with ⟨_, hl | hl⟩ | ⟨_, hl⟩ <;> rw [hl]
      · rfl
      · obtain ⟨a, ha⟩ := Option.isSome_iff_exists.mp hslot
        have hlt : slot < (p.limiters k).issued := h.issued _ a ha
        exact Function.update_of_ne hlt.ne _ _
  | start slot =>
      unfold rival at hrival
      dsimp only at hrival
      split at hrival
      · cases hrival
      · rename_i hfree
        have hother : ∀ other, (p.accounts (k, other)).isSome → other ≠ slot := by
          rintro other hsome rfl
          exact hfree (.inl hsome)
        by_cases hslot : slot ∈ (p.limiters k).pending
        · obtain ⟨l, hstart, _, hremaining, _⟩ := (h.kept k).start hslot
          have hkeeps : ∀ other, (p.accounts (k, other)).isSome → l.remaining other = (p.limiters k).remaining other := by
            intro other hsome
            rw [hremaining, Function.update_of_ne (hother other hsome)]
          rw [hstart] at hrival
          cases hrival
          exact ⟨h.set (.started slot l hstart) hkeeps, keeps_set hkeeps, rfl⟩
        · have hstart : (p.limiters k).start slot p.clock = _ := Limiter.start_not_pending hslot
          rw [hstart] at hrival
          cases hrival
          exact hset (.queue (p.limiters k).waiters) (fun _ _ => rfl)
  | release slot =>
      unfold rival at hrival
      dsimp only at hrival
      split at hrival
      · cases hrival
      · rename_i hfree
        cases hrival
        apply hset (.release slot)
        intro other hsome
        refine Function.update_of_ne ?_ _ _
        rintro rfl
        exact hfree (.inl hsome)

end Change

end Pools

end MoomooMcp.BrokerDispatch
