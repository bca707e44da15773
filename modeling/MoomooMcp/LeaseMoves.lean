import MoomooMcp.DispatchLease

namespace MoomooMcp.BrokerDispatch.Sys

open RateLimit

variable {β : Type} [InMemoryBucket β]

/-- The steps of a leased dispatch, each with what it found and what it did. -/
inductive Move (s : Sys β) : Sys β → Prop
  | clock (now : ℚ) (h : s.pools.clock ≤ now) : Move s { s with pools := { s.pools with clock := now } }
  | rival (k : PoolKey) (r : Rival) (pools : Pools β) (h : s.pools.rival k r = some pools) :
      Move s { s with pools := pools }
  | acquired (k weight todo slots ticket slot pools) (ha : s.awaiter = .acquiring ((k, weight) :: todo) slots)
      (h : s.pools.reserve k weight ticket = (some slot, pools)) :
      Move s { s with pools := pools, awaiter := .acquiring todo (slots ++ [(k, slot)]) }
  | refused (k weight todo slots ticket pools) (ha : s.awaiter = .acquiring ((k, weight) :: todo) slots)
      (h : s.pools.reserve k weight ticket = (none, pools)) : Move s { s with pools := pools }
  | failed (todo slots) (ha : s.awaiter = .acquiring todo slots) : Move s { s with awaiter := .failing slots }
  | leased (slots) (ha : s.awaiter = .acquiring [] slots) :
      Move s { s with lease := { Lease.empty with slots := slots }, awaiter := .waiting, worker := .queued }
  | dropped (x rest) (ha : s.awaiter = .failing (x :: rest)) :
      Move s { s with pools := s.pools.release x, awaiter := .failing rest }
  | raised (ha : s.awaiter = .failing []) : Move s { s with awaiter := .ended }
  | cancelled (ha : s.awaiter = .waiting) (hlock : s.workerLocks = false) :
      Move s { s with lease := { s.lease with cancelled := true }, awaiter := .cancelling s.lease.slots }
  | spared (x rest) (ha : s.awaiter = .cancelling (x :: rest)) (h : x.1 ∈ s.lease.protectedKeys) :
      Move s { s with awaiter := .cancelling rest }
  | withdrawn (x rest) (ha : s.awaiter = .cancelling (x :: rest)) (h : x.1 ∉ s.lease.protectedKeys) :
      Move s { s with pools := s.pools.release x, awaiter := .cancelling rest }
  | returned (ha : s.awaiter = .cancelling []) : Move s { s with awaiter := .ended }
  | rejected (hw : s.worker = .queued) : Move s { s with worker := .ended }
  | begun (hw : s.worker = .queued) (h : s.lease.cancelled = false) : Move s { s with worker := .running .service }
  | borrowed (purpose plan todo slots owned k weight slot)
      (hw : s.worker = .running (.entering purpose plan ((k, weight) :: todo) slots owned)) (hslot : slots k = some slot)
      (h : weight ≤ s.pools.remaining (k, slot)) :
      Move s { s with worker := .running (.entering purpose plan todo slots owned) }
  | lacked (purpose plan todo slots owned k weight)
      (hw : s.worker = .running (.entering purpose plan ((k, weight) :: todo) slots owned))
      (h : ∀ slot, slots k = some slot → s.pools.remaining (k, slot) < weight) :
      Move s { s with worker := .running (.lacking purpose plan todo slots owned k weight) }
  | entered (purpose plan slots owned) (hw : s.worker = .running (.entering purpose plan [] slots owned)) :
      Move s (s.enter purpose plan slots owned)
  | granted (purpose plan todo slots owned k weight slot pools)
      (hw : s.worker = .running (.lacking purpose plan todo slots owned k weight))
      (h : s.pools.reserve k weight none = (some slot, pools)) :
      Move s { s with
        pools := pools
        worker := .running (.entering purpose plan todo (Function.update slots k (some slot)) (owned ++ [(k, slot)])) }
  | denied (purpose plan todo slots owned k weight pools)
      (hw : s.worker = .running (.lacking purpose plan todo slots owned k weight))
      (h : s.pools.reserve k weight none = (none, pools)) :
      Move s { s with pools := pools, worker := .running (.releasing owned) }
  | barred (purpose) (hw : s.worker = .running (.starting purpose)) (hlock : s.awaiterLocks = false)
      (h : s.lease.permits (purpose.bind Purpose.key) = false) : Move s { s with worker := .running .service }
  | untimed (purpose) (hw : s.worker = .running (.starting purpose)) (hlock : s.awaiterLocks = false)
      (hkey : purpose.bind Purpose.key = none) (h : s.lease.permits none = true) :
      Move s { s with worker := .running .service, calls := s.calls ++ [none] }
  | called (purpose k slot pools) (hw : s.worker = .running (.starting purpose)) (hlock : s.awaiterLocks = false)
      (hkey : purpose.bind Purpose.key = some k) (h : s.lease.permits (some k) = true) (hslot : s.slots k = some slot)
      (hstart : s.pools.start (k, slot) = (true, pools)) :
      Move s { s with
        pools := pools
        stack := s.stack.map (Frame.record k)
        worker := .running .service
        calls := s.calls ++ [some k] }
  | misfired (purpose k slot pools) (hw : s.worker = .running (.starting purpose))
      (hkey : purpose.bind Purpose.key = some k) (hslot : s.slots k = some slot)
      (hstart : s.pools.start (k, slot) = (false, pools)) :
      Move s { s with pools := pools, worker := .running .service }
  | released (x rest) (hw : s.worker = .running (.releasing (x :: rest))) :
      Move s { s with pools := s.pools.release x, worker := .running (.releasing rest) }
  | resumed (hw : s.worker = .running (.releasing [])) : Move s { s with worker := .running .service }
  | cleared (x rest) (hw : s.worker = .finishing (x :: rest)) :
      Move s { s with pools := s.pools.release x, worker := .finishing rest }
  | ended (hw : s.worker = .finishing []) : Move s { s with worker := .ended }
  | reserve (requests bundle) (hw : s.worker = .running .service) (hplan : plan requests = .ok bundle) :
      Move s (s.entering .scope bundle)
  | uncounted (hw : s.worker = .running .service) : Move s { s with worker := .running (.starting none) }
  | call (operation args k bundle) (hw : s.worker = .running .service)
      (hplan : callPlan operation args = .ok (some (k, bundle)))
      (h : ∀ f ∈ s.stack, ∀ m, f.mutation = some m → k ∉ m.keys) : Move s (s.entering (.call k) bundle)
  | mutate (w bundle) (hw : s.worker = .running .service) (hplan : plan w.requests = .ok bundle)
      (h : ∀ f ∈ s.stack, f.mutation = none) : Move s (s.entering (.mutation w) bundle)
  | shielded (f m below) (hw : s.worker = .running .service) (hs : s.stack = f :: below) (hf : f.mutation = some m)
      (hm : m.stage = .reserved) (hlock : s.awaiterLocks = false) (h : s.lease.cancelled = false) :
      Move s { s.restage f m below (.guarded m.write.calls) with
        lease := { s.lease with protectedKeys := s.lease.protectedKeys ∪ m.keys } }
  | perform (f m below operation args rest k bundle) (hw : s.worker = .running .service) (hs : s.stack = f :: below)
      (hf : f.mutation = some m) (hm : m.stage = .guarded ((operation, args) :: rest))
      (hplan : callPlan operation args = .ok (some (k, bundle))) : Move s (s.entering (.perform k) bundle)
  | skip (f m below c rest) (hw : s.worker = .running .service) (hs : s.stack = f :: below) (hf : f.mutation = some m)
      (hm : m.stage = .guarded (c :: rest)) : Move s (s.restage f m below (.guarded rest))
  | unshielded (f m below rest) (hw : s.worker = .running .service) (hs : s.stack = f :: below)
      (hf : f.mutation = some m) (hm : m.stage = .guarded rest) (hlock : s.awaiterLocks = false) :
      Move s { s.restage f m below .unguarded with
        lease := { s.lease with protectedKeys := s.lease.protectedKeys \ m.keys } }
  | leave (f below) (hw : s.worker = .running .service) (hs : s.stack = f :: below)
      (h : ∀ m, f.mutation = some m → ∀ rest, m.stage ≠ .guarded rest) :
      Move s { s with stack := below, worker := .running (.releasing f.owned) }
  | finish (hw : s.worker = .running .service) (hs : s.stack = []) (hlock : s.awaiterLocks = false) :
      Move s { s with lease := { s.lease with closed := true }, worker := .finishing s.lease.slots }

variable {s t : Sys β}

theorem stepAwaiter_move {a : Action} (h : s.stepAwaiter a = some t) : Move s t := by
  cases a with
  | acquire ticket =>
      unfold stepAwaiter at h
      dsimp only at h
      split at h
      · rename_i k weight todo slots ha
        split at h <;> rename_i hreserve <;> cases h
        · exact .acquired k weight todo slots ticket _ _ ha hreserve
        · exact .refused k weight todo slots ticket _ ha hreserve
      · cases h
  | fail =>
      unfold stepAwaiter at h
      dsimp only at h
      split at h
      · rename_i ha
        cases h
        exact .failed _ _ ha
      · cases h
  | await =>
      unfold stepAwaiter at h
      dsimp only at h
      split at h
      · rename_i ha
        cases h
        exact .leased _ ha
      · rename_i ha
        cases h
        exact .dropped _ _ ha
      · rename_i ha
        cases h
        exact .raised ha
      · rename_i ha
        split at h <;> rename_i hx <;> cases h
        · exact .spared _ _ ha hx
        · exact .withdrawn _ _ ha hx
      · rename_i ha
        cases h
        exact .returned ha
      · cases h
  | cancel =>
      unfold stepAwaiter at h
      dsimp only at h
      split at h
      · rename_i ha
        split at h <;> rename_i hlock <;> cases h
        exact .cancelled ha (Bool.not_eq_true _ ▸ hlock)
      · cases h
  | _ => cases h

theorem startCall_move {purpose : Option Purpose} (hw : s.worker = .running (.starting purpose))
    (hlock : s.awaiterLocks = false) (h : s.startCall (purpose.bind Purpose.key) = some t) : Move s t := by
  unfold startCall at h
  by_cases hpermits : s.lease.permits (purpose.bind Purpose.key) = true
  · rw [if_pos hpermits] at h
    cases hkey : purpose.bind Purpose.key with
    | none =>
        rw [hkey] at h hpermits
        cases h
        exact .untimed purpose hw hlock hkey hpermits
    | some k =>
        rw [hkey] at h hpermits
        obtain ⟨slot, hslot, ht⟩ := Option.map_eq_some_iff.mp h
        split at ht <;> rename_i hstart <;> cases ht
        · exact .called purpose k slot _ hw hlock hkey hpermits hslot hstart
        · exact .misfired purpose k slot _ hw hkey hslot hstart
  · rw [if_neg hpermits] at h
    cases h
    exact .barred purpose hw hlock (Bool.not_eq_true _ ▸ hpermits)

theorem work_move (h : s.work = some t) : Move s t := by
  unfold work at h
  split at h
  · rename_i purpose plan k weight todo slots owned hw
    split at h <;> rename_i hslot <;> cases h
    · obtain ⟨slot, hk, hleft⟩ := (Option.any_eq_true _ _).mp hslot
      exact .borrowed purpose plan todo slots owned k weight slot hw hk (of_decide_eq_true hleft)
    · refine .lacked purpose plan todo slots owned k weight hw (fun slot hk => ?_)
      rw [hk] at hslot
      simpa using hslot
  · rename_i purpose plan slots owned hw
    cases h
    exact .entered purpose plan slots owned hw
  · rename_i purpose plan todo slots owned k weight hw
    split at h <;> rename_i hreserve <;> cases h
    · exact .granted purpose plan todo slots owned k weight _ _ hw hreserve
    · exact .denied purpose plan todo slots owned k weight _ hw hreserve
  · rename_i purpose hw
    split at h <;> rename_i hlock
    · cases h
    · exact startCall_move hw (Bool.not_eq_true _ ▸ hlock) h
  · rename_i x rest hw
    cases h
    exact .released x rest hw
  · rename_i hw
    cases h
    exact .resumed hw
  · rename_i x rest hw
    cases h
    exact .cleared x rest hw
  · rename_i hw
    cases h
    exact .ended hw
  · cases h

theorem toOption_eq_some {ε α : Type} {r : Except ε α} {a : α} (h : r.toOption = some a) : r = .ok a := by
  cases r with
  | error e => cases h
  | ok b => rw [Option.some.inj h]

theorem serve_move {a : Action} (hw : s.worker = .running .service) (h : s.serve a = some t) : Move s t := by
  cases a with
  | reserve requests =>
      obtain ⟨bundle, hplan, rfl⟩ := Option.map_eq_some_iff.mp h
      exact .reserve requests bundle hw (toOption_eq_some hplan)
  | call operation args =>
      unfold serve at h
      dsimp only at h
      split at h
      · cases h
        exact .uncounted hw
      · rename_i k bundle hplan
        split at h <;> rename_i hfree <;> cases h
        refine .call operation args k bundle hw hplan (fun f hf m hm => ?_)
        have hall := List.all_eq_true.mp hfree f hf
        rw [hm] at hall
        simpa using hall
      · cases h
  | mutate w =>
      unfold serve at h
      dsimp only at h
      split at h <;> rename_i hfree
      · cases h
      · obtain ⟨bundle, hplan, rfl⟩ := Option.map_eq_some_iff.mp h
        refine .mutate w bundle hw (toOption_eq_some hplan) (fun f hf => ?_)
        unfold mutating at hfree
        rw [List.any_eq_true] at hfree
        by_contra hm
        exact hfree ⟨f, hf, Option.isSome_iff_ne_none.mpr hm⟩
  | protectMutation =>
      unfold serve at h
      dsimp only at h
      split at h <;> try cases h
      rename_i f below hs
      split at h <;> try cases h
      rename_i m hf
      split at h <;> try cases h
      rename_i hm
      split at h <;> rename_i hfree <;> cases h
      rw [Bool.or_eq_true, not_or, Bool.not_eq_true, Bool.not_eq_true] at hfree
      exact .shielded f m below hw hs hf hm hfree.1 hfree.2
  | perform =>
      unfold serve at h
      dsimp only at h
      split at h <;> try cases h
      rename_i f below hs
      split at h <;> try cases h
      rename_i m hf
      split at h <;> try cases h
      rename_i operation args rest hm
      split at h <;> try cases h
      rename_i k bundle hplan
      exact .perform f m below operation args rest k bundle hw hs hf hm hplan
  | skip =>
      unfold serve at h
      dsimp only at h
      split at h <;> try cases h
      rename_i f below hs
      split at h <;> try cases h
      rename_i m hf
      split at h <;> try cases h
      rename_i c rest hm
      exact .skip f m below c rest hw hs hf hm
  | unprotect =>
      unfold serve at h
      dsimp only at h
      split at h <;> try cases h
      rename_i f below hs
      split at h <;> try cases h
      rename_i m hf
      split at h <;> try cases h
      rename_i rest hm
      split at h <;> rename_i hlock <;> cases h
      exact .unshielded f m below rest hw hs hf hm (Bool.not_eq_true _ ▸ hlock)
  | leave =>
      unfold serve at h
      dsimp only at h
      split at h <;> try cases h
      rename_i f below hs
      split at h <;> try cases h
      rename_i hm
      refine .leave f below hw hs (fun m hf rest hstage => ?_)
      obtain ⟨w, wanted, stage, sent⟩ := m
      change stage = .guarded rest at hstage
      subst hstage
      exact hm w wanted rest sent hf
  | finish =>
      unfold serve at h
      dsimp only at h
      split at h <;> try cases h
      rename_i hs
      split at h <;> rename_i hlock <;> cases h
      exact .finish hw hs (Bool.not_eq_true _ ▸ hlock)
  | _ => cases h

theorem step_move {a : Action} (h : s.step a = some t) : Move s t := by
  cases a with
  | tick now =>
      unfold step at h
      dsimp only at h
      split at h <;> rename_i hnow <;> cases h
      exact .clock now hnow
  | rival k r =>
      obtain ⟨pools, hrival, rfl⟩ := Option.map_eq_some_iff.mp h
      exact .rival k r pools hrival
  | acquire ticket => exact stepAwaiter_move (show s.stepAwaiter (.acquire ticket) = some t from h)
  | fail => exact stepAwaiter_move (show s.stepAwaiter .fail = some t from h)
  | await => exact stepAwaiter_move (show s.stepAwaiter .await = some t from h)
  | cancel => exact stepAwaiter_move (show s.stepAwaiter .cancel = some t from h)
  | start =>
      unfold step at h
      dsimp only at h
      split at h <;> try cases h
      rename_i hw
      split at h <;> try cases h
      split at h <;> rename_i hopen <;> cases h
      · exact .rejected hw
      · rw [Bool.or_eq_true, not_or, Bool.not_eq_true, Bool.not_eq_true] at hopen
        exact .begun hw hopen.2
  | work => exact work_move h
  | _ =>
      -- The calls of the service, while it runs.
      unfold step at h
      dsimp only at h
      split at h
      · rename_i hw
        exact serve_move hw h
      · cases h

end MoomooMcp.BrokerDispatch.Sys
