import MoomooMcp.MetadataCache

namespace MoomooMcp.InstrumentMetadata

open OrderRules OrderedDict

/-- What a fact says of its instrument, without when it was read. -/
structure Content where
  classification : String
  lotSize : Option Decimal
  raw : Fields

def StaticFacts.content (f : StaticFacts) : Content := ⟨f.classification, f.lotSize, f.raw⟩

/-- What a row says of its instrument, when it says something that can be read. -/
def contentOf (fields : Fields) : Option Content :=
  match reported fields, normalizeQuote (Value.get fields "lot_size") with
  | some kind, .ok lotSize => some ⟨Text.normalize kind, lotSize, fields⟩
  | _, _ => none

/-- The last of several rows about one instrument. -/
def latest : List Fields → Option Content
  | [] => none
  | row :: rows => (latest rows).or (contentOf row)

/-- A row is in the way when its lot size is a number too large to be read. -/
def Readable (fields : Fields) : Prop :=
  (reported fields).isSome → ∃ lotSize, normalizeQuote (Value.get fields "lot_size") = .ok lotSize

/-- The gateway answers for each instrument as it always does, and fails a request that
names one of those it always fails for. -/
def Constant (failing : String → Prop) (table : String → List Fields) (ask : Provider) : Prop :=
  ∀ market group,
    ((∃ c ∈ group, failing c) → ∀ rows, ask market group ≠ .answered rows) ∧
    ((∀ c ∈ group, ¬ failing c) → ∃ rows, ask market group = .answered rows ∧
      ∀ c ∈ group, (rows.map Row.fields).filter (fun fields => code fields = c) = table c)

/-- An instrument that a request may name. -/
structure Clear (failing : String → Prop) (table : String → List Fields) (name : String) : Prop where
  named : marketless name = false
  working : ¬ failing name
  readable : ∀ fields ∈ table name, Readable fields

variable {Ctx : Type} {a : InstrumentAdapter} {ctx : Ctx} {ask : Provider} {codes group : List String}
  {name : String}

theorem Row.exists_facts_ok {row : Row} :
    (∃ item, row.facts a group = .ok item) ↔ code row.fields ∈ group → Readable row.fields := by
  unfold Row.facts Readable
  split
  · next hr => exact iff_of_true ⟨none, rfl⟩ (fun _ h => by rw [hr] at h; cases h)
  · next kind hr =>
      split
      · next hmem =>
          constructor
          · rintro ⟨item, h⟩ - -
            obtain ⟨lot, hlot, -⟩ := Checks.bind_ok.mp h
            exact ⟨lot, hlot⟩
          · intro h
            obtain ⟨lot, hlot⟩ := h hmem (by rw [hr]; rfl)
            exact ⟨_, Checks.ok_bind hlot _⟩
      · next hmem => exact iff_of_true ⟨none, rfl⟩ (fun h => absurd h hmem)

theorem Row.facts_content {row : Row} {item : Option (String × StaticFacts)} (h : row.facts a group = .ok item)
    (hmem : code row.fields ∈ group) :
    item.map (fun p => (p.1, p.2.content)) = (contentOf row.fields).map (Prod.mk (code row.fields)) := by
  unfold Row.facts at h
  unfold contentOf
  split at h
  · next hr =>
      cases h
      rw [hr]
      rfl
  · next kind hr =>
      rw [if_pos hmem] at h
      obtain ⟨lot, hlot, h⟩ := Checks.bind_ok.mp h
      cases h
      rw [hr, hlot]
      rfl

/-- What the last row of an instrument says is what is read of it. -/
theorem rows_content {rows : List Row} {items : List (Option (String × StaticFacts))}
    (h : List.Forall₂ (fun (row : Row) item => row.facts a group = .ok item) rows items) (hmem : name ∈ group) :
    (lastOf name items.reduceOption).map StaticFacts.content =
      latest ((rows.map Row.fields).filter (fun fields => code fields = name)) := by
  induction h with
  | nil => rfl
  | @cons row item rows items hitem _ ih =>
      rw [List.map_cons, List.filter_cons]
      by_cases hc : code row.fields = name
      · have hcontent := Row.facts_content hitem (hc ▸ hmem)
        rw [if_pos (decide_eq_true hc), latest, ← ih]
        cases item with
        | none =>
            have hnone : contentOf row.fields = none := by simpa using hcontent.symm
            rw [hnone, Option.or_none, List.reduceOption_cons_of_none]
        | some p =>
            obtain ⟨content, hsome, hp⟩ := Option.map_eq_some_iff.mp hcontent.symm
            obtain ⟨hname, rfl⟩ := Prod.mk.inj hp
            rw [hsome, List.reduceOption_cons_of_some, lastOf, if_pos (hname.symm.trans hc), Option.map_or]
            rfl
      · rw [if_neg (by simpa using hc), ← ih]
        cases item with
        | none => rw [List.reduceOption_cons_of_none]
        | some p =>
            have hp := (Row.facts_ok hitem).1
            rw [List.reduceOption_cons_of_some, lastOf, if_neg (fun h => hc (hp.symm.trans h)), Option.or_none]

theorem readReply_answered (market : String) (rows : List Row) :
    readReply a market group (.answered rows) = (rows.mapM (Row.facts a group)).map List.reduceOption := by
  rw [readReply, Reply.rows, Checks.ok_bind rfl]
  cases rows.mapM (Row.facts a group) <;> rfl

section Replies

variable {failing : String → Prop} {table : String → List Fields} (hask : Constant failing table ask)

include hask

theorem exists_read_ok (g : String × List String) :
    (∃ facts, read a ask g = .ok facts) ↔ ∀ c ∈ g.2, ¬ failing c ∧ ∀ fields ∈ table c, Readable fields := by
  obtain ⟨hfails, hanswers⟩ := hask g.1 g.2
  by_cases hgood : ∀ c ∈ g.2, ¬ failing c
  · obtain ⟨rows, hrows, htable⟩ := hanswers hgood
    rw [read, hrows, readReply_answered, Checks.exists_map_ok, Checks.exists_mapM_ok]
    constructor
    · intro h c hc
      refine ⟨hgood c hc, fun fields hf => ?_⟩
      rw [← htable c hc, List.mem_filter, List.mem_map, decide_eq_true_iff] at hf
      obtain ⟨⟨row, hrow, rfl⟩, rfl⟩ := hf
      exact Row.exists_facts_ok.mp (h row hrow) hc
    · intro h row hrow
      refine Row.exists_facts_ok.mpr (fun hmem => (h _ hmem).2 row.fields ?_)
      rw [← htable _ hmem, List.mem_filter, decide_eq_true_iff]
      exact ⟨List.mem_map_of_mem hrow, rfl⟩
  · refine iff_of_false ?_ (fun h => hgood (fun c hc => (h c hc).1))
    push Not at hgood
    rintro ⟨facts, h⟩
    obtain ⟨rows, hrows, -⟩ := Checks.bind_ok.mp h
    have hnone := hfails hgood
    cases hreply : ask g.1 g.2 with
    | answered rows' => exact hnone rows' hreply
    | raised e | failed data | unreadable typeName =>
        rw [hreply] at hrows
        cases hrows

theorem read_content {g : String × List String} {facts : List (String × StaticFacts)} (h : read a ask g = .ok facts)
    (hmem : name ∈ g.2) : (lastOf name facts).map StaticFacts.content = latest (table name) := by
  have hgood := (exists_read_ok hask g).mp ⟨facts, h⟩
  obtain ⟨rows, hrows, htable⟩ := (hask g.1 g.2).2 (fun c hc => (hgood c hc).1)
  rw [read, hrows, readReply_answered] at h
  obtain ⟨items, hitems, rfl⟩ := Checks.map_ok.mp h
  rw [← htable name hmem]
  exact rows_content (Checks.mapM_ok.mp hitems) hmem

/-- The replies together say of an instrument what the one reply says that it is in. -/
theorem answers_content {groups : List (String × List String)} {answers : List (List (String × StaticFacts))}
    (h : List.Forall₂ (fun g facts => read a ask g = .ok facts) groups answers) :
    (lastOf name answers.flatten).map StaticFacts.content =
      if ∃ g ∈ groups, name ∈ g.2 then latest (table name) else none := by
  induction h with
  | nil => simp [lastOf]
  | @cons g facts groups answers hread _ ih =>
      rw [List.flatten_cons, lastOf_append, Option.map_or, ih]
      by_cases hmem : name ∈ g.2
      · have hfound : ∃ g' ∈ g :: groups, name ∈ g'.2 := ⟨g, List.mem_cons_self, hmem⟩
        rw [read_content hask hread hmem, if_pos hfound]
        split
        · exact Option.or_self
        · rfl
      · have hnone : lastOf name facts = none :=
          lastOf_eq_none (fun p hp hn => hmem (hn ▸ readReply_mem hread hp))
        rw [hnone, Option.map_none, Option.or_none]
        simp only [List.exists_mem_cons_iff, hmem, false_or]

theorem classifications_content {fresh : Facts} {requests : List (Request Ctx)}
    (h : classifications a ctx ask codes = (.ok fresh, requests)) :
    (fresh.get name).map StaticFacts.content = if name ∈ codes then latest (table name) else none := by
  obtain ⟨groups, answers, hg, ha, rfl, -⟩ := classifications_ok h
  rw [get_setAll, get_empty, Option.or_none, answers_content hask (Checks.mapM_ok.mp ha)]
  simp only [byMarket_mem hg]

theorem exists_classifications_ok :
    (∃ fresh, (classifications a ctx ask codes).1 = .ok fresh) ↔ ∀ c ∈ codes, Clear failing table c := by
  unfold classifications
  split
  · next e hg =>
      have hno : ¬ ∀ c ∈ codes, marketless c = false := by
        rw [← byMarket_ok]
        exact fun ⟨_, h⟩ => nomatch hg.symm.trans h
      exact iff_of_false nofun (fun h => hno (fun c hc => (h c hc).named))
  · next groups hg =>
      have hnamed := byMarket_ok.mp ⟨groups, hg⟩
      rw [askMarkets_result, Checks.exists_map_ok, Checks.exists_mapM_ok]
      constructor
      · intro h c hc
        obtain ⟨g, hgm, hcg⟩ := (byMarket_mem hg).mp hc
        obtain ⟨hworks, hreads⟩ := (exists_read_ok hask g).mp (h g hgm) c hcg
        exact ⟨hnamed c hc, hworks, hreads⟩
      · intro h g hgm
        refine (exists_read_ok hask g).mpr (fun c hc => ?_)
        have hclear := h c ((byMarket_mem hg).mpr ⟨g, hgm, hc⟩)
        exact ⟨hclear.working, hclear.readable⟩

end Replies

section Lookup

variable [DecidableEq Ctx] {weakrefable : Ctx → Bool} {s : State Ctx} {now : ℚ} {log : List (Request Ctx)}
  {o : Outcome Ctx} {failing : Ctx → String → Prop} {table : Ctx → String → List Fields}

/-- The cache says what the gateway would say again, of instruments it would answer for. -/
def Told (failing : Ctx → String → Prop) (table : Ctx → String → List Fields) (s : State Ctx) : Prop :=
  ∀ ctx, s.context = some ctx → ∀ name f, s.metadata.get name = some f →
    Clear (failing ctx) (table ctx) name ∧ latest (table ctx name) = some f.content

/-- A lookup answers as the gateway does. -/
structure Faithful (failing : Ctx → String → Prop) (table : Ctx → String → List Fields) (ctx : Ctx)
    (codes : List String) (result : Except Exc Facts) : Prop where
  answers : (∃ found, result = .ok found) ↔ ∀ c ∈ codes, Clear (failing ctx) (table ctx) c
  content : ∀ found, result = .ok found → ∀ name,
    (found.get name).map StaticFacts.content = if name ∈ codes then latest (table ctx name) else none

omit [DecidableEq Ctx] in
theorem Told.cached {f : StaticFacts} (h : Told failing table s) (hc : Cached s ctx now name f) :
    Clear (failing ctx) (table ctx) name ∧ latest (table ctx name) = some f.content :=
  h ctx hc.1 name f hc.2.1

/-- What is not asked for again would have been answered. -/
theorem Told.missing_clear (h : Told failing table s) (weakrefable : Ctx → Bool) (ctx : Ctx) (codes : List String) (now : ℚ) :
    (∀ c ∈ missing weakrefable s ctx codes now, Clear (failing ctx) (table ctx) c) ↔
      ∀ c ∈ codes, Clear (failing ctx) (table ctx) c := by
  constructor
  · intro hm c hc
    by_cases hcached : ∃ f, Cached s ctx now c f
    · obtain ⟨f, hf⟩ := hcached
      exact (h.cached hf).1
    · exact hm c (mem_missing.mpr ⟨hc, not_exists.mp hcached⟩)
  · intro hm c hc
    exact hm c (mem_missing.mp hc).1

/-- What is asked for and what is not make up what the gateway says of all the codes. -/
theorem Told.hit (h : Told failing table s) (weakrefable : Ctx → Bool) (ctx : Ctx) (codes : List String) (now : ℚ)
    (name : String) :
    (if name ∈ missing weakrefable s ctx codes now then latest (table ctx name) else none).or
      ((if name ∈ codes then (live weakrefable s ctx now).get name else none).map StaticFacts.content) =
      if name ∈ codes then latest (table ctx name) else none := by
  by_cases hn : name ∈ codes
  · rw [if_pos hn, if_pos hn]
    cases hf : (live weakrefable s ctx now).get name with
    | none =>
        have hm : name ∈ missing weakrefable s ctx codes now := by
          rw [missing, List.mem_filter, hf]
          exact ⟨hn, rfl⟩
        rw [if_pos hm, Option.map_none, Option.or_none]
    | some f =>
        have hc := live_get.mp hf
        rw [if_neg (fun hm => (mem_missing.mp hm).2 f hc), (h.cached hc).2]
        rfl
  · rw [if_neg hn, if_neg hn, if_neg (fun hm => hn (mem_missing.mp hm).1)]
    rfl

theorem Looked.faithful (h : Looked weakrefable a s ctx codes now ask o) (hs : Told failing table s)
    (hask : Constant (failing ctx) (table ctx) ask) : Faithful failing table ctx codes o.result := by
  have hclear := hs.missing_clear weakrefable ctx codes now
  have hasked : (∃ fresh, (classifications a ctx ask (missing weakrefable s ctx codes now)).1 = .ok fresh) ↔
      ∀ c ∈ codes, Clear (failing ctx) (table ctx) c := (exists_classifications_ok hask).trans hclear
  cases h with
  | @reused found kept hall hfound hkept =>
      rw [hall] at hclear
      refine ⟨iff_of_true ⟨found, rfl⟩ (hclear.mp (fun c hc => absurd hc List.not_mem_nil)), ?_⟩
      rintro found ⟨⟩ name
      have hhit := hs.hit weakrefable ctx codes now name
      rw [hall, if_neg List.not_mem_nil, Option.none_or] at hhit
      rw [hfound, hhit]
  | @refused e kept requests hrefused hkept =>
      rw [hrefused] at hasked
      exact ⟨iff_of_false nofun (fun h => nomatch hasked.mpr h), nofun⟩
  | @filled fresh found kept requests hfilled hfound hkept hlength =>
      have hfresh : ∃ fresh', (classifications a ctx ask (missing weakrefable s ctx codes now)).1 = .ok fresh' :=
        ⟨fresh, by rw [hfilled]⟩
      refine ⟨iff_of_true ⟨found, rfl⟩ (hasked.mp hfresh), ?_⟩
      rintro found ⟨⟩ name
      rw [hfound, Option.map_or, classifications_content hask hfilled, hs.hit]

theorem Looked.told (h : Looked weakrefable a s ctx codes now ask o) (hs : Told failing table s)
    (hask : Constant (failing ctx) (table ctx) ask) : Told failing table o.state := by
  have hold : ∀ name f, (live weakrefable s ctx now).get name = some f → ∀ ctx', (attach weakrefable s ctx).1.context = some ctx' →
      Clear (failing ctx') (table ctx') name ∧ latest (table ctx' name) = some f.content := by
    intro name f hf ctx' hctx
    have hc := live_get.mp hf
    rw [hc.context] at hctx
    cases hctx
    exact hs.cached hc
  have hfaithful := h.faithful hs hask
  cases h with
  | reused hall hfound hkept =>
      intro ctx' hctx name f hf
      exact hold name f ((hkept name).symm.trans hf) ctx' hctx
  | refused hrefused hkept =>
      intro ctx' hctx name f hf
      exact hold name f ((hkept name).symm.trans hf) ctx' hctx
  | @filled fresh found kept requests hfilled hfound hkept hlength =>
      intro ctx' hctx name f hf
      rcases hkept name f hf with ⟨hf, hcontext, -⟩ | hf
      · rw [hctx] at hcontext
        cases hcontext
        have hserved := (classifications_served hfilled).1 f hf
        have hname := (mem_missing.mp (classifications_mem hfilled hserved)).1
        have hcontent := hfaithful.content found rfl name
        rw [hfound, hf, Option.some_or, if_pos hname] at hcontent
        exact ⟨hfaithful.answers.mp ⟨found, rfl⟩ name hname, Eq.symm hcontent⟩
      · exact hold name f hf ctx' hctx

variable {provider : Ctx → Provider → Prop}

theorem Reachable.told (h : Reachable weakrefable a provider log s)
    (hprovider : ∀ ctx ask, provider ctx ask → Constant (failing ctx) (table ctx) ask) : Told failing table s := by
  induction h with
  | init => exact nofun
  | collected _ _ => exact nofun
  | lookup ctx codes now ask _ hask ih => exact staticFacts_looked.told ih (hprovider ctx ask hask)

theorem Looked.uncached (h : Looked weakrefable a s ctx codes now ask o) (httl : a.metadataTtl = 0)
    (hs : ∀ f, s.metadata.get name ≠ some f) (f : StaticFacts) : o.state.metadata.get name ≠ some f := by
  have hlive : ∀ f, (live weakrefable s ctx now).get name ≠ some f := fun f hf => hs f (live_get.mp hf).2.1
  cases h with
  | reused hall hfound hkept | refused hask hkept => exact fun hf => hlive f ((hkept name).symm.trans hf)
  | filled hask hfound hkept hlength =>
      intro hf
      rcases hkept name f hf with ⟨-, -, hpos⟩ | hf
      · exact absurd httl hpos.ne'
      · exact hlive f hf

/-- An adapter whose metadata lives for no time has nothing in its cache. -/
theorem Reachable.uncached (h : Reachable weakrefable a provider log s) (httl : a.metadataTtl = 0) (name : String)
    (f : StaticFacts) : s.metadata.get name ≠ some f := by
  induction h generalizing f with
  | init => exact nofun
  | collected _ ih => exact ih f
  | lookup ctx codes now ask _ _ ih => exact staticFacts_looked.uncached httl ih f

/-- Two lookups give the same facts, but for when they were read. -/
def SameContent (found found' : Facts) : Prop :=
  ∀ name, (found.get name).map StaticFacts.content = (found'.get name).map StaticFacts.content

omit [DecidableEq Ctx] in
theorem Faithful.similar {result result' : Except Exc Facts} (h : Faithful failing table ctx codes result)
    (h' : Faithful failing table ctx codes result') : Checks.Similar SameContent result result' := by
  refine Checks.Similar.of_ok (h.answers.trans h'.answers.symm) (fun found found' hf hf' name => ?_)
  rw [h.content found hf, h'.content found' hf']

/-- The cache cannot be told from its results: what it answers was read through the very
context it is asked for, and a gateway that always says the same is heard the same through
an adapter that keeps nothing. -/
theorem metadata_cache_transparent (h : Reachable weakrefable a provider log s) (ctx : Ctx) (codes : List String)
    (now : ℚ) (ask : Provider) :
    Transparent a log s ctx codes now (staticFacts weakrefable a s ctx codes now ask) ∧
      ∀ (failing : Ctx → String → Prop) (table : Ctx → String → List Fields), (∀ ctx ask, provider ctx ask → Constant (failing ctx) (table ctx) ask) → provider ctx ask →
        ∀ (uncached : InstrumentAdapter) (log' : List (Request Ctx)) (u : State Ctx) (now' : ℚ) (ask' : Provider),
          uncached.metadataTtl = 0 → Reachable weakrefable uncached provider log' u → provider ctx ask' →
            (∀ name f, ¬ Cached u ctx now' name f) ∧
              Checks.Similar SameContent (staticFacts weakrefable a s ctx codes now ask).result
                (staticFacts weakrefable uncached u ctx codes now' ask').result := by
  refine ⟨staticFacts_looked.transparent h.inv, ?_⟩
  intro failing table hprovider hask uncached log' u now' ask' httl hu hask'
  refine ⟨fun name f hc => hu.uncached httl name f hc.2.1, ?_⟩
  have hcached : Faithful failing table ctx codes (staticFacts weakrefable a s ctx codes now ask).result :=
    staticFacts_looked.faithful (h.told hprovider) (hprovider ctx ask hask)
  exact hcached.similar (staticFacts_looked.faithful (hu.told hprovider) (hprovider ctx ask' hask'))

end Lookup

section Shares

def adapter : InstrumentAdapter := ⟨300, 2048, by norm_num, by norm_num⟩

def share : Fields := [("code", .text "US.AAPL"), ("stock_type", .text " stock "), ("lot_size", .text "1")]

def shares (clock : ℚ) : Provider := fun _ _ => .answered [⟨share, clock, "2026-09-24T00:00:00Z"⟩]

def Trades (_ : ℕ) (ask : Provider) : Prop := ∃ clock, ask = shares clock

theorem trades_constant (ctx : ℕ) (ask : Provider) (h : Trades ctx ask) :
    Constant (fun _ => False) (fun c => [share].filter (fun fields => code fields = c)) ask := by
  obtain ⟨clock, rfl⟩ := h
  intro market group
  exact ⟨fun ⟨_, _, hf⟩ => hf.elim, fun _ => ⟨_, rfl, fun _ _ => rfl⟩⟩

def bought : Outcome ℕ := staticFacts (fun _ => true) adapter State.init 0 ["US.AAPL"] 0 (shares 1)

example : bought.state.metadata.rows.map (fun r => (r.1, r.2.classification, r.2.expiresAt)) = [("US.AAPL", "STOCK", 301)] := by
  decide +kernel

theorem metadata_cache_transparent_shares :
    Transparent adapter bought.requests bought.state 0 ["US.AAPL"] 10
        (staticFacts (fun _ => true) adapter bought.state 0 ["US.AAPL"] 10 (shares 10)) ∧
      Checks.Similar SameContent
        (staticFacts (fun _ => true) adapter bought.state 0 ["US.AAPL"] 10 (shares 10)).result
        (staticFacts (fun _ => true) { adapter with metadataTtl := 0, ttl_nonneg := le_rfl } State.init 0 ["US.AAPL"] 20
          (shares 20)).result := by
  have hbought : Reachable (fun _ => true) adapter Trades bought.requests bought.state :=
    .lookup 0 ["US.AAPL"] 0 (shares 1) .init ⟨1, rfl⟩
  obtain ⟨htransparent, hconstant⟩ := metadata_cache_transparent hbought 0 ["US.AAPL"] 10 (shares 10)
  refine ⟨htransparent, ?_⟩
  exact (hconstant _ _ trades_constant ⟨10, rfl⟩ _ [] State.init 20 (shares 20) rfl .init ⟨20, rfl⟩).2

end Shares

end MoomooMcp.InstrumentMetadata
