import MoomooMcp.Visibility

namespace MoomooMcp.System

open ExecutionStore Executor Preparation Machine

/-- A modification that asks for a quantity or a price. -/
def QuantityPrice (env : Environment) (r : Row) : Prop :=
  r.kind = .modify ∧ (env = .real → Real.exposing r.request.modifyOrderOp = true)

def Concerns (account : Account) (id : OrderId) (r : Row) : Prop :=
  r.account = account ∧ r.request.orderId.map OrderId.value = some id.value

/-- The most recently dispatched quantity or price modification of an order. -/
structure Latest (j : Journal) (account : Account) (id : OrderId) (l : Row) : Prop where
  stored : j.row l.operationId = some l
  kind : QuantityPrice j.environment l
  target : Concerns account id l
  last : ∃ past later, j.markers = past ++ l.operationId :: later ∧
    ∀ k ∈ later, ∀ r, j.row k = some r → QuantityPrice j.environment r → ¬Concerns account id r

def Settled (r : Row) : Prop := r.state = .acknowledged ∨ r.state = .reconciled

/-- An order that shows the newer request shows the older one, too. -/
structure Agrees (newer older : Params) : Prop where
  qty : ∀ q, older.qty = some q → newer.qty = some q
  price : ∀ x, older.price = some x → newer.price = some x

/-- With no review outstanding and the order as its latest modification left it,
the guard lets a further modification through. -/
def NeverLockedOut (j : Journal) : Prop :=
  ∀ account id l m reading (row : Row), Latest j account id l → Settled l → l.mergedRequest = some m →
    j.reviews = ∅ → row.account = account → reading.orderId = some id → reading.qty = m.qty →
    reading.price = m.price → reading.trdEnv.getD j.environment = j.environment →
    reading.accId.getD account = account →
    ∃ ids, guard j.environment row reading (j.unobservedModifications account id) = .ok ids

/-- The steps that leave no order locked. A recovery reconciles the latest quantity or
price modification of an order, where that was never acknowledged, only if the
unobserved ones agree with it, and a modification that asks for neither is
acknowledged only if it agrees with the latest that does. -/
structure Unhindered (env : Environment) (s : Sys) (a : Action) (_ : Sys) : Prop where
  reconciled : ∀ p t n started k completed fault fault' resolution id m, s.process = some p →
    a = .thread t (.record completed false fault fault') → p.threads t = .concluding n started k →
    k.resolution = some resolution → resolution ≠ .terminalAccounted → n.row.state ≠ .acknowledged →
    Latest s.journal n.row.account id n.row → n.row.mergedRequest = some m →
    ∀ r m', r ∈ earlier s.journal n.row.account (some id) → ¬s.journal.pending r.operationId →
      r.mergedRequest = some m' → Agrees m m'
  acknowledged : ∀ p t c row q sdk o fault fault' id l m, s.process = some p →
    a = .thread t (.finish fault fault') → p.threads t = .finishing c row q sdk o →
    o.state = .acknowledged → o.reason = none → row.kind = .modify → ¬QuantityPrice env row →
    Concerns row.account id row → Latest s.journal row.account id l → Settled l → l.mergedRequest = some m →
    Agrees m q.merged

/-- Every unobserved modification of an order agrees with its latest one, or is under review. -/
def Agreed (j : Journal) : Prop :=
  ∀ account id l m, Latest j account id l → Settled l → l.mergedRequest = some m →
    ∀ r m', r ∈ earlier j account (some id) → r.mergedRequest = some m' → j.pending r.operationId ∨ Agrees m m'

variable {env : Environment} {ok : Sys → Action → Sys → Prop} {s s' : Sys} {a : Action} {k : OperationId}
  {account : Account} {id : OrderId} {r r' l : Row} {m m' : Params}

theorem last_split {past past' later : List OperationId} {k k' : OperationId}
    (h : past' ++ [k'] = past ++ k :: later) (hne : k ≠ k') :
    ∃ later', later = later' ++ [k'] ∧ past' = past ++ k :: later' := by
  rcases List.eq_nil_or_concat later with rfl | ⟨later', last, rfl⟩
  · obtain ⟨_, hlast⟩ := List.append_inj' h rfl
    cases hlast
    exact absurd rfl hne
  · rw [List.concat_eq_append, ← List.cons_append, ← List.append_assoc] at h
    obtain ⟨hfront, hback⟩ := List.append_inj' h rfl
    cases hback
    exact ⟨later', List.concat_eq_append, hfront⟩

theorem QuantityPrice.descends (h : QuantityPrice env r) (hd : r.Descends r') : QuantityPrice env r' :=
  ⟨hd.kind.trans h.1, fun he => by rw [hd.request]; exact h.2 he⟩

theorem QuantityPrice.ascends (h : QuantityPrice env r') (hd : r.Descends r') : QuantityPrice env r :=
  ⟨hd.kind.symm.trans h.1, fun he => by rw [← hd.request]; exact h.2 he⟩

theorem concerns_descends (hd : r.Descends r') : Concerns account id r' ↔ Concerns account id r := by
  unfold Concerns
  rw [hd.account, hd.request]

theorem merges_quantityPrice {c : Request} (hkind : r.kind = c.kind) (hrequest : r.request = c.params)
    (h : QuantityPrice env r) : merges env c = true := by
  obtain ⟨hmodify, hreal⟩ := h
  rw [hkind] at hmodify
  unfold merges
  rw [hmodify]
  cases env with
  | simulate => rfl
  | real =>
      rw [hrequest] at hreal
      exact hreal rfl

theorem concluded_merged {op : OperationId} {o : Outcome} : (Row.concluded op o r).mergedRequest = r.mergedRequest := by
  have honly : (Row.only op (Row.outcome o) r).mergedRequest = r.mergedRequest := by
    unfold Row.only
    split <;> rfl
  unfold Row.concluded
  split
  · unfold Row.observe
    split <;> exact honly
  · exact honly

theorem RowStep.merged (h : RowStep s s' a r r') (hsame : s'.journal.markers = s.journal.markers) :
    r'.mergedRequest = r.mergedRequest := by
  cases h with
  | marked _ _ hmarkers =>
      rw [hsame] at hmarkers
      simp at hmarkers
  | concluded => exact concluded_merged
  | recovered =>
      unfold Row.recoverDispatch
      split <;> rfl
  | kept | observed | refused | checked | resolved => rfl

/-- A review ends with a resolution, and that takes the row out of the acknowledged ones. -/
theorem pending_step (hs : Inv s) (h : Transition s a s') (hp : s.journal.pending k) :
    s'.journal.pending k ∨ ∀ r', s'.journal.row k = some r' → r'.state ≠ .acknowledged := by
  obtain ⟨reason, hreason⟩ := hp
  rcases record_step h with ⟨_, _, hreviews⟩ | ⟨p, t, n, started, c, completed, fault, fault', hp, rfl, hph, hc⟩
  · exact .inl ⟨reason, hreviews hreason⟩
  · have hthread := (hs.process p hp).threads t
    rw [hph] at hthread
    obtain ⟨hcurrent, _⟩ := hthread
    have hstored : s.journal.row n.row.operationId = some n.row := hcurrent.stored
    by_cases hk : k = n.row.operationId
    · subst hk
      generalize s'.journal = j at hc
      cases hc with
      | check => exact .inl ⟨reason, hreason⟩
      | resolved row resolution target hrow _ _ htarget =>
          right
          intro r' hr' hstate
          rw [hstored] at hrow
          cases hrow
          rw [row_resolve, row_recordCheck, hstored, Option.map_some, Option.map_some, Row.only_self rfl,
            Row.only_self (by rfl)] at hr'
          cases hr'
          rcases disposition_state htarget with ht | ht | ht | ⟨ht, _⟩ <;> cases ht.symm.trans hstate
    · exact .inl ((hc.other hk).2.mpr ⟨reason, hreason⟩)

/-- A dispatched modification knows what it was dispatched as; a paper one with both fields. -/
theorem merged_complete (h : Reachable env ok s) (hr : s.journal.row k = some r) (hm : r.marker = true) :
    ∃ m, r.mergedRequest = some m ∧ (env = .simulate → r.kind = .modify → m.qty ≠ none ∧ m.price ≠ none) := by
  have hrule : r.marker = true → ∃ m, r.mergedRequest = some m ∧
      (env = .simulate → r.kind = .modify → m.qty ≠ none ∧ m.price ≠ none) := by
    refine row_rule (P := fun r => r.marker = true → ∃ m, r.mergedRequest = some m ∧
      (env = .simulate → r.kind = .modify → m.qty ≠ none ∧ m.price ≠ none)) ?_ ?_ h hr
    · intro env c account uuid hm
      cases hm
    · intro s s' a r r' hreach hstep hr hm
      have henv := reachable_environment hreach
      cases hstep with
      | @marked p t i c row q hp hph =>
          refine ⟨q.merged, rfl, fun hsimulate hkind => ?_⟩
          have hthread := ((reachable_inv hreach).process p hp).threads t
          have hsource := reachable_sourcing hreach hp t
          rw [hph] at hthread hsource
          obtain ⟨hadmitted, _⟩ := hthread
          have hsource : Source s.journal.environment s.journal c r q := hsource
          have hmerges : merges s.journal.environment c = true :=
            merges_quantityPrice hadmitted.kind hadmitted.request ⟨hkind, fun he => by
              rw [henv, hsimulate] at he
              cases he⟩
          unfold Source at hsource
          rw [if_pos hmerges] at hsource
          obtain ⟨order, hsourced⟩ := hsource
          exact ⟨hsourced.whole, hsourced.priced (henv.trans hsimulate)⟩
      | concluded =>
          obtain ⟨m, hmerged, hcomplete⟩ := hr rfl
          refine ⟨m, concluded_merged.trans hmerged, fun hsimulate hkind => hcomplete hsimulate ?_⟩
          rw [(Row.concluded_descends _ _ _).kind] at hkind
          exact hkind
      | recovered =>
          rw [Row.recoverDispatch] at hm ⊢
          split at hm
          · next hs => simp only [hs, if_true]; exact hr hm
          · next hs => simp only [hs, if_false]; exact hr hm
      | kept | observed | refused | checked | resolved => exact hr hm
  exact hrule hm

theorem marks_step (h : Transition s a s') (hnew : s'.journal.markers ≠ s.journal.markers) :
    ∃ op merged, Marks op merged s.journal s'.journal := by
  cases h with
  | thread _ _ hmove =>
      rcases hmove.markers with hsame | ⟨_, row, q, _, _, hcommit⟩
      · exact absurd hsame hnew
      · exact ⟨row.operationId, q.merged, hcommit⟩
  | crash | unopened => exact absurd rfl hnew
  | unreviewed _ hstartup => exact absurd (by dsimp only; rw [hstartup.rest]) hnew
  | reviewed _ hstartup hreview | opened _ hstartup hreview =>
      exact absurd (by dsimp only; rw [hreview.rest, hstartup.rest]) hnew

/-- A modification that is the latest one after a step that marks nothing was it before. -/
theorem Latest.before {j j' : Journal} (h : Latest j' account id r') (hextends : j.Extends j')
    (henv : j'.environment = j.environment) (hmarkers : j'.markers = j.markers)
    (hr : j.row r.operationId = some r) (hd : r.Descends r') : Latest j account id r := by
  obtain ⟨past, later, hsplit, hlast⟩ := h.last
  rw [henv] at hlast
  refine ⟨hr, ?_, (concerns_descends hd).mp h.target, past, later, ?_, ?_⟩
  · have hkind := h.kind
    rw [henv] at hkind
    exact hkind.ascends hd
  · rw [← hmarkers, hsplit, hd.operationId]
  · intro k hk r₁ hr₁ hkind hconcerns
    obtain ⟨r₂, hr₂, hd₂⟩ := hextends k r₁ hr₁
    exact hlast k hk r₂ hr₂ (hkind.descends hd₂) ((concerns_descends hd₂).mpr hconcerns)

/-- A marker of another operation makes no other modification the latest one. -/
theorem Latest.unmark {j j' : Journal} {op : OperationId} {merged : Params} (h : Latest j' account id l)
    (hc : Marks op merged j j') (hother : l.operationId ≠ op) : Latest j account id l := by
  obtain ⟨past, later, hsplit, hlast⟩ := h.last
  have henv := hc.environment
  rw [henv] at hlast
  rw [hc.rest] at hsplit
  have hsplit : j.markers ++ [op] = past ++ l.operationId :: later := hsplit
  have hstored := h.stored
  rw [hc.other hother] at hstored
  have hkind := h.kind
  rw [henv] at hkind
  obtain ⟨later', hlater, hfront⟩ := last_split hsplit hother
  refine ⟨hstored, hkind, h.target, past, later', hfront, ?_⟩
  intro k hk r hr hkind hconcerns
  obtain ⟨r', hr', hd⟩ := hc.extends k r hr
  exact hlast k (by rw [hlater]; exact List.mem_append_left _ hk) r' hr' (hkind.descends hd)
    ((concerns_descends hd).mpr hconcerns)

theorem agreed_marks {j j' : Journal} {op : OperationId} {merged : Params} (h : Agreed j)
    (hc : Marks op merged j j') : Agreed j' := by
  have hother : ∀ r : Row, j'.row r.operationId = some r → Settled r → r.operationId ≠ op := by
    intro r hr hsettled hk
    obtain ⟨w, hw, _⟩ := hc.waiting
    rw [hk, hc.rows, hw, Option.map_some, Row.only_self (row_key hw)] at hr
    cases hr
    rcases hsettled with hs | hs <;> cases hs
  intro account id l m hl hsettled hm r m' hr hm'
  obtain ⟨order, hid, hrow, haccount, hkind, hack, hrest⟩ := mem_earlier.mp hr
  have hrow' : j.row r.operationId = some r := (hc.other (hother r hrow (.inl hack))).symm.trans hrow
  have hbefore : r ∈ earlier j account (some id) :=
    mem_earlier.mpr ⟨order, hid, hrow', haccount, hkind, hack, hrest⟩
  have hlatest : Latest j account id l := hl.unmark hc (hother l hl.stored hsettled)
  rcases h account id l m hlatest hsettled hm r m' hbefore hm' with hpending | hagrees
  · left
    unfold Journal.pending
    rw [hc.rest]
    exact hpending
  · exact .inr hagrees

/-- An acknowledgement of a quantity or price modification retires every earlier
unobserved modification of its order. -/
theorem earlier_retired (h : Reachable env ok s) {p : Process} {t : Tid} {c : Request} {row : Row} {q : Prepared}
    {sdk : Option SdkAnswer} {o : Outcome} (hp : s.process = some p) (hph : p.threads t = .finishing c row q sdk o)
    (hc : Concludes row.operationId o s.journal s'.journal) (hstate : o.state = .acknowledged)
    (hkind : QuantityPrice env row) (htarget : Concerns account id row)
    (hr : r ∈ earlier s.journal account (some id)) (hr' : s'.journal.row r.operationId = some r') :
    r'.modificationObserved = true := by
  have hthread := ((reachable_inv h).process p hp).threads t
  have hsource := reachable_sourcing h hp t
  rw [hph] at hthread hsource
  obtain ⟨hadmitted, hflight, _, _, hanswered⟩ := hthread
  have hflight : s.journal.row row.operationId = some (row.markDispatch q.merged) := hflight
  have hobserved : o.observedModifications = q.observed := by
    rcases hanswered.cases with ⟨hunknown, _⟩ | ⟨_, _, _, hsame, _⟩
    · cases hstate.symm.trans hunknown
    · exact hsame
  have henv : (shared s p).environment = env := reachable_environment h
  have hsource : Source (shared s p).environment s.journal c row q := hsource
  rw [henv] at hsource
  unfold Source at hsource
  rw [if_pos (merges_quantityPrice hadmitted.kind hadmitted.request hkind)] at hsource
  obtain ⟨order, hsourced⟩ := hsource
  obtain ⟨order', hid, hrow, haccount, hmodify, hack, hunobserved, hsame⟩ := mem_earlier.mp hr
  cases hid
  have hmem : r ∈ earlier s.journal row.account c.params.orderId := by
    obtain ⟨haccount', hid'⟩ := htarget
    rw [hadmitted.request, Option.map_eq_some_iff] at hid'
    obtain ⟨own, hown, hvalue⟩ := hid'
    exact mem_earlier.mpr ⟨own, hown, hrow, haccount.trans haccount'.symm, hmodify, hack, hunobserved,
      hsame.trans (by rw [hvalue])⟩
  have hcarried : r.operationId ∈ o.observedModifications := by
    rw [hobserved]
    exact (hsourced.observed _).mpr ⟨r, hmem, rfl⟩
  have hne : r.operationId ≠ row.operationId := by
    intro he
    rw [he, hflight] at hrow
    cases hrow
    cases hack
  rw [hc.rows, hrow, Option.map_some] at hr'
  cases hr'
  unfold Row.concluded
  rw [if_pos hstate, Row.only_other hne]
  unfold Row.observe
  rw [if_pos ⟨hcarried, hmodify, hack⟩]

/-- The step lemma for a modification that was acknowledged and unobserved all along. -/
theorem agreed_old (h : Reachable env (Unhindered env) s) (ha : Agreed s.journal) (hstep : Transition s a s')
    (hok : Unhindered env s a s') {l' : Row} (hlatest : Latest s.journal account id l) (hl : RowStep s s' a l l')
    (hsettled : Settled l') (hm : l.mergedRequest = some m) (hr : r ∈ earlier s.journal account (some id))
    (hm' : r.mergedRequest = some m') (hr' : r' ∈ earlier s'.journal account (some id))
    (hkey : r'.operationId = r.operationId) : s'.journal.pending r'.operationId ∨ Agrees m m' := by
  obtain ⟨_, _, hrow', _, _, hack', hunobserved', _⟩ := mem_earlier.mp hr'
  rw [hkey] at hrow'
  have hkeep : s.journal.pending r.operationId → s'.journal.pending r'.operationId := by
    intro hp
    rw [hkey]
    rcases pending_step (reachable_inv h) hstep hp with hp' | hnot
    · exact hp'
    · exact absurd hack' (hnot r' hrow')
  by_cases hpending : s.journal.pending r.operationId
  · exact .inl (hkeep hpending)
  have hsame : Settled l → Agrees m m' := by
    intro hs
    exact (ha account id l m hlatest hs hm r m' hr hm').resolve_left hpending
  right
  have henv := reachable_environment h
  have hkind : QuantityPrice env l := by
    rw [← henv]
    exact hlatest.kind
  cases hl with
  | kept => exact hsame hsettled
  | observed _ _ _ _ _ _ hack => exact hsame (.inl hack)
  | checked => exact hsame hsettled
  | marked | refused => rcases hsettled with hs | hs <;> cases hs
  | recovered _ hdispatching =>
      unfold Row.recoverDispatch at hsettled
      rw [if_pos hdispatching] at hsettled
      rcases hsettled with hs | hs <;> cases hs
  | @concluded p t c row q sdk o fault fault' hp hph hcommit =>
      have hthread := ((reachable_inv h).process p hp).threads t
      rw [hph] at hthread
      have hstate : o.state = .acknowledged := by
        obtain ⟨_, _, _, _, hanswered⟩ := hthread
        have hconcluded : (Row.concluded row.operationId o (row.markDispatch q.merged)).state = o.state :=
          concluded_state rfl
        unfold Settled at hsettled
        rw [hconcluded] at hsettled
        rcases hanswered.cases with ⟨hunknown, _⟩ | ⟨hack, _⟩
        · rw [hunknown] at hsettled
          rcases hsettled with hs | hs <;> cases hs
        · exact hack
      have hobserved : r'.modificationObserved = true :=
        earlier_retired h hp hph hcommit hstate hkind hlatest.target hr hrow'
      rw [hunobserved'] at hobserved
      cases hobserved
  | @resolved p t n started k completed fault fault' resolution target hp hph hresolution htarget =>
      by_cases hs : n.row.state = .acknowledged
      · exact hsame (.inl hs)
      · have hnot : resolution ≠ .terminalAccounted := by
          rintro rfl
          simp only [Journal.disposition] at htarget
          split_ifs at htarget
          cases htarget
          rcases hsettled with hs | hs <;> cases hs
        obtain ⟨haccount, _⟩ := hlatest.target
        subst haccount
        exact hok.reconciled p t n started k completed fault fault' resolution id m hp rfl hph hresolution hnot hs
          hlatest hm r m' hr hpending hm'

/-- The step lemma for a modification that is acknowledged just now. -/
theorem agreed_new (h : Reachable env (Unhindered env) s) {p : Process} {t : Tid} {c : Request} {row l' : Row}
    {q : Prepared} {sdk : Option SdkAnswer} {o : Outcome} {fault fault' : Fault} (hp : s.process = some p)
    (hph : p.threads t = .finishing c row q sdk o) (hc : Concludes row.operationId o s.journal s'.journal)
    (hok : Unhindered env s (.thread t (.finish fault fault')) s') (hlatest' : Latest s'.journal account id l')
    (hlatest : Latest s.journal account id l) (hd : l.Descends l') (hsettled : Settled l')
    (hm : l.mergedRequest = some m) (hstate : o.state = .acknowledged) (hkind : row.kind = .modify) (htarget : Concerns account id row) :
    s'.journal.pending row.operationId ∨ Agrees m q.merged := by
  have henv := reachable_environment h
  have hthread := ((reachable_inv h).process p hp).threads t
  rw [hph] at hthread
  obtain ⟨_, hflight, _⟩ := hthread
  have hflight : s.journal.row row.operationId = some (row.markDispatch q.merged) := hflight
  by_cases hself : l.operationId = row.operationId
  · have hstored := hlatest.stored
    rw [hself, hflight] at hstored
    cases hstored
    cases hm
    exact .inr ⟨fun _ hq => hq, fun _ hx => hx⟩
  · have hnot : ¬QuantityPrice env row := by
      intro hquantity
      obtain ⟨past, later, hsplit, hlast⟩ := hlatest.last
      obtain ⟨past', hpast⟩ := flight_last h hp (show (p.threads t).flight = some row by rw [hph]; rfl)
      rw [hpast] at hsplit
      obtain ⟨later', hlater, _⟩ := last_split hsplit hself
      have hmem : row.operationId ∈ later := by
        rw [hlater]
        exact List.mem_append_right _ (List.mem_singleton_self _)
      exact hlast _ hmem _ hflight (by rw [henv]; exact hquantity) htarget
    by_cases hreason : o.reason = none
    · right
      have hrow' := hlatest'.stored
      obtain ⟨haccount, hid⟩ := htarget
      subst haccount
      have hbefore : Settled l := by
        rw [hd.operationId, hc.rows, hlatest.stored, Option.map_some] at hrow'
        cases hrow'
        unfold Settled at hsettled ⊢
        rwa [concluded_other_state hself] at hsettled
      exact hok.acknowledged p t c row q sdk o fault fault' id l m hp rfl hph hstate hreason hkind hnot ⟨rfl, hid⟩
        hlatest hbefore hm
    · exact .inl (hc.pending.mpr (.inl ⟨rfl, hreason⟩))

theorem agreed_step (h : Reachable env (Unhindered env) s) (ha : Agreed s.journal) (hstep : Transition s a s')
    (hok : Unhindered env s a s') : Agreed s'.journal := by
  by_cases hnew : s'.journal.markers = s.journal.markers
  · intro account id l' m hlatest' hsettled hm r' m' hr' hm'
    have hs := reachable_inv h
    obtain ⟨order, hid, hrow', haccount, hkind, hack, hunobserved, hsame⟩ := mem_earlier.mp hr'
    have hadmission : ∀ {c : Request} {account uuid},
        ¬Settled (admission s.journal.environment c account uuid).row := by
      rintro c account uuid (hsettled | hsettled) <;> cases hsettled
    rcases row_step hs hstep hlatest'.stored with ⟨l, hl, hlrow⟩ | ⟨_, _, _, _, _, rfl⟩
    swap
    · exact absurd hsettled hadmission
    rcases row_step hs hstep hrow' with ⟨r, hr, hrrow⟩ | ⟨_, _, _, _, _, rfl⟩
    swap
    · exact absurd (.inl hack) hadmission
    have hlatest : Latest s.journal account id l :=
      hlatest'.before (extends_step hstep) (environment_step hstep) hnew (by rw [row_key hl]; exact hl)
        hlrow.descends
    rw [hlrow.merged hnew] at hm
    rw [hrrow.merged hnew] at hm'
    have hkey : r'.operationId = r.operationId := hrrow.descends.operationId
    have hold : r.state = .acknowledged → r.modificationObserved = false →
        s'.journal.pending r'.operationId ∨ Agrees m m' := by
      intro hack₀ hunobserved₀
      have hd := hrrow.descends
      refine agreed_old h ha hstep hok hlatest hlrow hsettled hm ?_ hm' hr' hkey
      refine mem_earlier.mpr ⟨order, hid, by rw [row_key hr]; exact hr, hd.account.symm.trans haccount,
        hd.kind.symm.trans hkind, hack₀, hunobserved₀, ?_⟩
      rw [← hd.request]
      exact hsame
    cases hrrow with
    | kept | checked => exact hold hack hunobserved
    | observed => cases hunobserved
    | marked | refused => cases hack
    | recovered _ hdispatching =>
        unfold Row.recoverDispatch at hack
        rw [if_pos hdispatching] at hack
        cases hack
    | resolved _ _ _ htarget =>
        rcases disposition_state htarget with ht | ht | ht | ⟨ht, _⟩ <;> cases ht.symm.trans hack
    | @concluded p t c row q sdk o fault fault' hp hph hcommit =>
        have hstate : o.state = .acknowledged := (concluded_state (by rfl)).symm.trans hack
        have hd := Row.concluded_descends row.operationId o (row.markDispatch q.merged)
        rw [hkey]
        cases hid
        cases hm'
        have hmodify : row.kind = .modify := hd.kind.symm.trans hkind
        have htarget : Concerns account id row := by
          have hrequest : (Row.concluded row.operationId o (row.markDispatch q.merged)).request = row.request :=
            hd.request
          rw [hrequest] at hsame
          exact ⟨hd.account.symm.trans haccount, hsame⟩
        have hagrees : s'.journal.pending row.operationId ∨ Agrees m q.merged :=
          agreed_new h hp hph hcommit hok hlatest' hlatest hlrow.descends hsettled hm hstate hmodify htarget
        exact hagrees
  · obtain ⟨op, merged, hc⟩ := marks_step hstep hnew
    exact agreed_marks ha hc

theorem reachable_agreed (h : Reachable env (Unhindered env) s) : Agreed s.journal := by
  refine h.induction (P := fun s => Agreed s.journal) ?_ ?_
  · rintro s rfl account id l m hlatest
    cases hlatest.stored
  · intro s a s' hreach ha hnext hok
    exact agreed_step hreach ha (step_transition hnext) hok

/-- The modification visibility guard locks no order out, in either executor: in every
journal reached without a recovery that reconciles a modification over the heads of
the unobserved ones, and without an acknowledged modification that asks for other
values than the latest one of the order, a reading that shows what the latest
acknowledged or reconciled modification was dispatched as is accepted. -/
theorem never_locked_out (h : Reachable env (Unhindered env) s) : NeverLockedOut s.journal := by
  intro account id l m reading row hlatest hsettled hm hreviews haccount _ hqty hprice htrdEnv haccId
  have henv := reachable_environment h
  have hshows : ∀ r ∈ s.journal.unobservedModifications account id, ∃ m', r.mergedRequest = some m' ∧
      Agrees m m' ∧ (env = .simulate → m'.qty ≠ none ∧ m'.price ≠ none) := by
    intro r hr
    obtain ⟨hrow, _, hkind, hack, _⟩ := mem_unobservedModifications.mp hr
    obtain ⟨m', hm', hcomplete⟩ := merged_complete h hrow (acknowledged_marker h hrow hack)
    refine ⟨m', hm', ?_, fun hsimulate => hcomplete hsimulate hkind⟩
    rcases reachable_agreed h account id l m hlatest hsettled hm r m' hr hm' with ⟨_, hpending⟩ | hagrees
    · rw [hreviews] at hpending
      cases hpending
    · exact hagrees
  rw [henv] at htrdEnv ⊢
  cases env with
  | simulate =>
      refine ⟨_, Paper.requireModificationVisibility_accepts (fun r hr => ?_)⟩
      obtain ⟨m', hm', hagrees, hcomplete⟩ := hshows r hr
      obtain ⟨hqty', hprice'⟩ := hcomplete rfl
      obtain ⟨x, hx⟩ := Option.ne_none_iff_exists'.mp hqty'
      obtain ⟨y, hy⟩ := Option.ne_none_iff_exists'.mp hprice'
      have hshown : reading.qty = m'.qty ∧ reading.price = m'.price :=
        ⟨hqty.trans ((hagrees.qty x hx).trans hx.symm), hprice.trans ((hagrees.price y hy).trans hy.symm)⟩
      exact Paper.visible_iff.mpr ⟨m', hm', by rw [hshown.1]; exact hqty', by rw [hshown.2]; exact hprice', hshown⟩
  | real =>
      have hown : Real.ownTarget row.account reading = .ok () := by
        unfold Real.ownTarget refuseIf
        rw [if_neg (by simp [htrdEnv, haccount, haccId])]
      have hvisible : ∀ r ∈ s.journal.unobservedModifications account id, Real.requireVisible reading r = .ok () := by
        intro r hr
        obtain ⟨m', hm', hagrees, _⟩ := hshows r hr
        exact Real.requireVisible_ok.mpr ⟨m', hm', fun x hx => hqty.trans (hagrees.qty x hx),
          fun x hx => hprice.trans (hagrees.price x hx)⟩
      unfold Preparation.guard Real.validateTarget
      rw [hown]
      exact ⟨_, Real.observePending_accepts hvisible⟩

/-- A modification whose outcome the caller did not learn, and the recovery that reconciles it. -/
def reconciledModification : List Action :=
  secondModification ++ [markStep, .thread 0 (.start none none), .thread 0 (.answer (.raised "timed out") none),
    .thread 0 (.finish .none .none), .thread 0 (.check "second" .none .none 100 100),
    .thread 0 (.observe (.ok [sampleOrder 20 90])), .thread 0 (.account (fun _ => .ok [])),
    .thread 0 (.record 101 false .none .none)]

/-- What the second modification of the sample order is dispatched as. -/
def secondMerged : Params where
  modifyOrderOp := some .normal
  orderId := some (.decimal [4, 2])
  qty := some 20
  price := some 90
  adjustLimit := some 0
  trdEnv := some .simulate
  accId := some 7

def sampleThird : Row :=
  (admission .simulate (sampleModification "third" (some .normal) (some 30) none) 7 "third").row

/-- The run leaves the second modification the latest one, in the given state, with no review outstanding. -/
def EndsSecond (acts : List Action) (state : State) (s : Sys) : Prop :=
  run step (initial .simulate) acts = some s ∧ s.journal.reviews = ∅ ∧
    ∃ l, s.journal.row "second" = some l ∧ l.state = state ∧ l.mergedRequest = some secondMerged ∧
      Latest s.journal 7 (.decimal [4, 2]) l

/-- The reconciled modification had observed its predecessor, which blocks the order all the same. -/
theorem reconciled_modification_locks : ∃ s, Reachable .simulate free s ∧ ¬NeverLockedOut s.journal := by
  have hends : ∃ s, EndsSecond reconciledModification .reconciled s ∧ ∃ e, Preparation.guard .simulate sampleThird
      (sampleOrder 20 90) (s.journal.unobservedModifications 7 (.decimal [4, 2])) = .error e :=
    ⟨_, ⟨rfl, rfl, _, rfl, rfl, rfl, rfl, ⟨rfl, fun he => by cases he⟩, ⟨rfl, rfl⟩, ["first"], [], rfl,
      fun _ hk => by cases hk⟩, _, rfl⟩
  obtain ⟨s, ⟨hrun, hreviews, l, _, hstate, hmerged, hlatest⟩, e, herror⟩ := hends
  refine ⟨s, reachable_of_run _ hrun, fun h => ?_⟩
  have henv : s.journal.environment = .simulate := reachable_environment (reachable_of_run _ hrun)
  obtain ⟨ids, hids⟩ := h 7 (.decimal [4, 2]) l secondMerged (sampleOrder 20 90) sampleThird hlatest (.inr hstate)
    hmerged hreviews rfl rfl rfl rfl rfl rfl
  rw [henv, herror] at hids
  cases hids

/-- Two acknowledged modifications in a row. -/
def acknowledgedModifications : List Action :=
  secondModification ++ [markStep, .thread 0 (.start none none), .thread 0 (.answer sampleAcknowledgement none),
    .thread 0 (.finish .none .none)]

/-- In a paper deployment only a recovery can lock an order. -/
theorem unhindered_paper (h : a.records = false) (s s' : Sys) : Unhindered .simulate s a s' := by
  refine ⟨?_, ?_⟩
  · intro p t n started k completed fault fault' resolution id m _ ha
    subst ha
    cases h
  · intro p t c row q sdk o fault fault' id l m _ _ _ _ _ hkind hnot
    exact absurd ⟨hkind, fun he => by cases he⟩ hnot

theorem third_modification_passes : ∃ s ids, run step (initial .simulate) acknowledgedModifications = some s ∧
    Preparation.guard .simulate sampleThird (sampleOrder 20 90)
      (s.journal.unobservedModifications 7 (.decimal [4, 2])) = .ok ids := by
  have hok : ∀ a ∈ acknowledgedModifications, ∀ s s', step s a = some s' → Unhindered .simulate s a s' := by
    intro a ha s s' _
    refine unhindered_paper ?_ s s'
    have hnone : acknowledgedModifications.all (fun a => !a.records) = true := rfl
    simpa using List.all_eq_true.mp hnone a ha
  have hends : ∃ s, EndsSecond acknowledgedModifications .acknowledged s :=
    ⟨_, rfl, rfl, _, rfl, rfl, rfl, rfl, ⟨rfl, fun he => by cases he⟩, ⟨rfl, rfl⟩, ["first"], [], rfl,
      fun _ hk => by cases hk⟩
  obtain ⟨s, hrun, hreviews, l, _, hstate, hmerged, hlatest⟩ := hends
  have hreach : Reachable .simulate (Unhindered .simulate) s := .of_run rfl hrun hok
  have henv : s.journal.environment = .simulate := reachable_environment hreach
  obtain ⟨ids, hids⟩ := never_locked_out hreach 7 (.decimal [4, 2]) l secondMerged (sampleOrder 20 90) sampleThird
    hlatest (.inl hstate) hmerged hreviews rfl rfl rfl rfl (by rw [henv]; rfl) rfl
  rw [henv] at hids
  exact ⟨s, ids, hrun, hids⟩

end MoomooMcp.System
