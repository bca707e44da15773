import Mathlib.Data.List.ReduceOption
import MoomooMcp.Checks
import MoomooMcp.InstrumentMetadata

namespace MoomooMcp.InstrumentMetadata

open OrderRules OrderedDict

variable {Ctx : Type} {a : InstrumentAdapter} {ctx : Ctx} {ask : Provider} {codes group : List String}
  {name : String} {f : StaticFacts}

theorem Row.facts_ok {row : Row} (h : row.facts a group = .ok (some (name, f))) :
    name = code row.fields ∧ name ∈ group := by
  unfold Row.facts at h
  split at h
  · cases h
  · split at h
    · next hmem =>
        obtain ⟨lot, -, h⟩ := Checks.bind_ok.mp h
        cases h
        exact ⟨rfl, hmem⟩
    · cases h

/-- The facts of a reply are of the codes that were asked for. -/
theorem readReply_mem {reply : Reply} {facts : List (String × StaticFacts)}
    (h : readReply a name group reply = .ok facts) {p : String × StaticFacts} (hp : p ∈ facts) : p.1 ∈ group := by
  obtain ⟨rows, -, h⟩ := Checks.bind_ok.mp h
  obtain ⟨items, hitems, h⟩ := Checks.bind_ok.mp h
  cases h
  rw [List.reduceOption_mem_iff] at hp
  obtain ⟨row, -, hrow⟩ := Checks.forall₂_mem (Checks.mapM_ok.mp hitems).flip (some p) hp
  exact (Row.facts_ok hrow).2

theorem byMarket_get {groups groups' : OrderedDict String (List String)} (h : byMarket codes groups = .ok groups')
    (m : String) : (groups'.get m).getD [] = (groups.get m).getD [] ++ codes.filter (fun c => market c = m) := by
  induction codes generalizing groups with
  | nil =>
      cases h
      rw [List.filter_nil, List.append_nil]
  | cons c codes ih =>
      rw [byMarket] at h
      split at h
      · cases h
      · rw [ih h, get_set]
        by_cases hm : market c = m
        · simp [hm]
        · simp [hm, Ne.symm hm]

theorem byMarket_ok {groups : OrderedDict String (List String)} :
    (∃ groups', byMarket codes groups = .ok groups') ↔ ∀ c ∈ codes, marketless c = false := by
  induction codes generalizing groups with
  | nil => exact iff_of_true ⟨groups, rfl⟩ (fun _ hc => absurd hc List.not_mem_nil)
  | cons c codes ih =>
      rw [List.forall_mem_cons, byMarket]
      cases hc : marketless c with
      | true => exact iff_of_false (fun ⟨_, h⟩ => nomatch h) (fun h => nomatch h.1)
      | false =>
          rw [if_neg (by simp), ih]
          exact (and_iff_right rfl).symm

section Groups

variable {groups : OrderedDict String (List String)} (h : byMarket codes OrderedDict.empty = .ok groups)

include h

/-- A group holds the codes of one market. -/
theorem byMarket_rows {g : String × List String} (hg : g ∈ groups.rows) :
    g.2 = codes.filter (fun c => market c = g.1) := by
  have hget := byMarket_get h g.1
  rw [get_eq_some.mpr hg] at hget
  simpa using hget

theorem byMarket_mem : name ∈ codes ↔ ∃ g ∈ groups.rows, name ∈ g.2 := by
  constructor
  · intro hmem
    have hget := byMarket_get h (market name)
    cases hg : groups.get (market name) with
    | none =>
        rw [hg] at hget
        have hnone : codes.filter (fun c => market c = market name) = [] := by
          simpa using hget.symm
        have hin : name ∈ codes.filter (fun c => market c = market name) :=
          List.mem_filter.mpr ⟨hmem, decide_eq_true rfl⟩
        rw [hnone] at hin
        exact absurd hin List.not_mem_nil
    | some g =>
        refine ⟨(market name, g), get_eq_some.mp hg, ?_⟩
        rw [byMarket_rows h (get_eq_some.mp hg)]
        exact List.mem_filter.mpr ⟨hmem, decide_eq_true rfl⟩
  · rintro ⟨g, hg, hmem⟩
    rw [byMarket_rows h hg] at hmem
    exact List.mem_of_mem_filter hmem

end Groups

/-- The log holds a request through this context that was answered, and a row of the
answer yields these facts. -/
def Served (a : InstrumentAdapter) (log : List (Request Ctx)) (ctx : Ctx) (name : String) (f : StaticFacts) : Prop :=
  ∃ r ∈ log, r.context = ctx ∧ ∃ facts, readReply a r.market r.codes r.reply = .ok facts ∧ (name, f) ∈ facts

theorem Served.mono {log log' : List (Request Ctx)} (h : Served a log ctx name f) (hsub : log ⊆ log') :
    Served a log' ctx name f := by
  obtain ⟨r, hr, hs⟩ := h
  exact ⟨r, hsub hr, hs⟩

def read (a : InstrumentAdapter) (ask : Provider) (g : String × List String) :
    Except Exc (List (String × StaticFacts)) :=
  readReply a g.1 g.2 (ask g.1 g.2)

def request (ctx : Ctx) (ask : Provider) (g : String × List String) : Request Ctx := ⟨ctx, g.1, g.2, ask g.1 g.2⟩

/-- The markets are asked one after the other, and the facts of the later replies win. -/
theorem askMarkets_result (groups : List (String × List String)) (found : Facts) :
    (askMarkets a ctx ask groups found).1 =
      (groups.mapM (read a ask)).map (fun answers => found.setAll answers.flatten) := by
  induction groups generalizing found with
  | nil => rfl
  | cons g groups ih =>
      obtain ⟨m, group⟩ := g
      rw [askMarkets, List.mapM_cons, show read a ask (m, group) = readReply a m group (ask m group) from rfl]
      cases readReply a m group (ask m group) with
      | error e => rfl
      | ok facts =>
          dsimp only
          rw [ih]
          cases groups.mapM (read a ask) with
          | error e => rfl
          | ok answers => exact congrArg Except.ok (setAll_append found facts answers.flatten).symm

theorem askMarkets_requests {groups : List (String × List String)} {found : Facts} {r : Request Ctx}
    (h : r ∈ (askMarkets a ctx ask groups found).2) : ∃ g ∈ groups, r = request ctx ask g := by
  induction groups generalizing found with
  | nil => exact absurd h List.not_mem_nil
  | cons g groups ih =>
      obtain ⟨m, group⟩ := g
      rw [askMarkets] at h
      have hfirst : ∃ g ∈ (m, group) :: groups, request ctx ask (m, group) = request ctx ask g :=
        ⟨_, List.mem_cons_self, rfl⟩
      split at h
      · rw [List.mem_singleton.mp h]
        exact hfirst
      · rcases List.mem_cons.mp h with rfl | h
        · exact hfirst
        · obtain ⟨g, hg, hr⟩ := ih h
          exact ⟨g, List.mem_cons_of_mem _ hg, hr⟩

/-- Where all are answered, all were asked. -/
theorem askMarkets_complete {groups : List (String × List String)} {found found' : Facts}
    (h : (askMarkets a ctx ask groups found).1 = .ok found') :
    (askMarkets a ctx ask groups found).2 = groups.map (request ctx ask) := by
  induction groups generalizing found with
  | nil => rfl
  | cons g groups ih =>
      obtain ⟨m, group⟩ := g
      rw [askMarkets] at h ⊢
      split at h
      · cases h
      · exact congrArg _ (ih h)

section Classifications

variable {requests : List (Request Ctx)} {fresh : Facts}

theorem classifications_mem {result : Except Exc Facts} (h : classifications a ctx ask codes = (result, requests))
    {ctx' : Ctx} (hs : Served a requests ctx' name f) : name ∈ codes := by
  obtain ⟨r, hr, -, facts, hread, hmem⟩ := hs
  unfold classifications at h
  split at h
  · cases h
    exact absurd hr List.not_mem_nil
  · next groups hg =>
      have hasked : r ∈ (askMarkets a ctx ask groups.rows OrderedDict.empty).2 := by
        rw [h]
        exact hr
      obtain ⟨g, hgm, rfl⟩ := askMarkets_requests hasked
      exact (byMarket_mem hg).mpr ⟨g, hgm, readReply_mem hread hmem⟩

theorem classifications_ok (h : classifications a ctx ask codes = (.ok fresh, requests)) :
    ∃ groups answers, byMarket codes OrderedDict.empty = .ok groups ∧
      groups.rows.mapM (read a ask) = .ok answers ∧ fresh = OrderedDict.empty.setAll answers.flatten ∧
      requests = groups.rows.map (request ctx ask) := by
  unfold classifications at h
  split at h
  · cases h
  · next groups hg =>
      have hresult := congrArg Prod.fst h
      have hrequests := askMarkets_complete hresult
      rw [askMarkets_result] at hresult
      obtain ⟨answers, ha, rfl⟩ := Checks.map_ok.mp hresult
      exact ⟨groups, answers, hg, ha, rfl, (congrArg Prod.snd h).symm.trans hrequests⟩

/-- The facts of a lookup are those its own requests yield. -/
theorem served_iff {groups : List (String × List String)} {answers : List (List (String × StaticFacts))}
    (ha : groups.mapM (read a ask) = .ok answers) :
    Served a (groups.map (request ctx ask)) ctx name f ↔ (name, f) ∈ answers.flatten := by
  rw [Checks.mapM_ok] at ha
  constructor
  · rintro ⟨r, hr, -, facts, hread, hmem⟩
    obtain ⟨g, hg, rfl⟩ := List.mem_map.mp hr
    obtain ⟨facts', hfacts, hread'⟩ := Checks.forall₂_mem ha g hg
    have heq : facts' = facts := Except.ok.inj (hread'.symm.trans hread)
    exact List.mem_flatten.mpr ⟨facts', hfacts, heq ▸ hmem⟩
  · intro hmem
    obtain ⟨facts, hfacts, hmem⟩ := List.mem_flatten.mp hmem
    obtain ⟨g, hg, hread⟩ := Checks.forall₂_mem ha.flip facts hfacts
    exact ⟨request ctx ask g, List.mem_map_of_mem hg, rfl, facts, hread, hmem⟩

theorem classifications_served (h : classifications a ctx ask codes = (.ok fresh, requests)) :
    (∀ f, fresh.get name = some f → Served a requests ctx name f) ∧
      ((fresh.get name).isSome ↔ ∃ f, Served a requests ctx name f) := by
  obtain ⟨groups, answers, -, ha, rfl, rfl⟩ := classifications_ok h
  rw [get_setAll, get_empty, Option.or_none]
  constructor
  · intro f hf
    exact (served_iff ha).mpr (mem_of_lastOf hf)
  · rw [lastOf_isSome]
    exact exists_congr (fun f => (served_iff ha).symm)

end Classifications

section Lookup

variable [DecidableEq Ctx] {weakrefable : Ctx → Bool} {s : State Ctx} {now : ℚ} {log : List (Request Ctx)}
  {o : Outcome Ctx}

/-- The cache holds these facts, read through this very context, and they have not expired. -/
def Cached (s : State Ctx) (ctx : Ctx) (now : ℚ) (name : String) (f : StaticFacts) : Prop :=
  s.context = some ctx ∧ s.metadata.get name = some f ∧ now < f.expiresAt

theorem live_get : (live weakrefable s ctx now).get name = some f ↔ Cached s ctx now name f := by
  unfold live attach
  rw [get_restrict, Option.filter_eq_some_iff, decide_eq_true_iff]
  split
  · next h => exact (and_iff_right h).symm
  · next h => exact iff_of_false (by simp) (fun hf => h hf.1)

/-- The codes that have to be asked for. -/
def missing (weakrefable : Ctx → Bool) (s : State Ctx) (ctx : Ctx) (codes : List String) (now : ℚ) : List String :=
  codes.filter (fun c => ((live weakrefable s ctx now).get c).isNone)

theorem mem_missing : name ∈ missing weakrefable s ctx codes now ↔ name ∈ codes ∧ ∀ f, ¬ Cached s ctx now name f := by
  rw [missing, List.mem_filter, Option.isNone_iff_eq_none, Option.eq_none_iff_forall_ne_some]
  exact and_congr_right (fun _ => forall_congr' (fun f => not_congr live_get))

/-- Everything that one lookup can do. -/
inductive Looked (weakrefable : Ctx → Bool) (a : InstrumentAdapter) (s : State Ctx) (ctx : Ctx) (codes : List String)
    (now : ℚ) (ask : Provider) : Outcome Ctx → Prop
  | reused {found kept}
      (hall : missing weakrefable s ctx codes now = [])
      (hfound : ∀ n, found.get n = if n ∈ codes then (live weakrefable s ctx now).get n else none)
      (hkept : ∀ n, kept.get n = (live weakrefable s ctx now).get n) :
      Looked weakrefable a s ctx codes now ask ⟨.ok found, ⟨(attach weakrefable s ctx).1.context, kept⟩, []⟩
  | refused {e kept requests}
      (hask : classifications a ctx ask (missing weakrefable s ctx codes now) = (.error e, requests))
      (hkept : ∀ n, kept.get n = (live weakrefable s ctx now).get n) :
      Looked weakrefable a s ctx codes now ask ⟨.error e, ⟨(attach weakrefable s ctx).1.context, kept⟩, requests⟩
  | filled {fresh found kept requests}
      (hask : classifications a ctx ask (missing weakrefable s ctx codes now) = (.ok fresh, requests))
      (hfound : ∀ n, found.get n = (fresh.get n).or (if n ∈ codes then (live weakrefable s ctx now).get n else none))
      (hkept : ∀ n f, kept.get n = some f →
        (fresh.get n = some f ∧ (attach weakrefable s ctx).1.context = some ctx ∧ 0 < a.metadataTtl) ∨
          (live weakrefable s ctx now).get n = some f)
      (hlength : s.metadata.rows.length ≤ a.metadataCapacity → kept.rows.length ≤ a.metadataCapacity) :
      Looked weakrefable a s ctx codes now ask ⟨.ok found, ⟨(attach weakrefable s ctx).1.context, kept⟩, requests⟩

theorem live_length {kept : Facts} (hkept : ∀ n, kept.get n = (live weakrefable s ctx now).get n) {n : ℕ}
    (h : s.metadata.rows.length ≤ n) : kept.rows.length ≤ n := by
  refine (length_le_of_get (fun k f hf => ?_)).trans h
  rw [hkept, live_get] at hf
  exact ⟨f, hf.2.1⟩

theorem attach_cacheable (h : (attach weakrefable s ctx).2 = true) :
    (attach weakrefable s ctx).1.context = some ctx := by
  unfold attach at h ⊢
  split at h
  · next hs => rw [if_pos hs]; exact hs
  · next hs => rw [if_neg hs]; exact if_pos h

theorem staticFacts_looked :
    Looked weakrefable a s ctx codes now ask (staticFacts weakrefable a s ctx codes now ask) := by
  have hfound : ∀ n, (collect codes (live weakrefable s ctx now).get).get n =
      if n ∈ codes then (live weakrefable s ctx now).get n else none := get_collect codes _
  have hmoved : ∀ (ks : List String) n,
      (ks.foldl moveToEnd (live weakrefable s ctx now)).get n = (live weakrefable s ctx now).get n :=
    fun ks n => get_foldl_moveToEnd ks _ n
  have hmissing : codes.filter (fun c => ((collect codes (live weakrefable s ctx now).get).get c).isNone) =
      missing weakrefable s ctx codes now := by
    refine List.filter_congr (fun c hc => ?_)
    rw [hfound, if_pos hc]
  unfold staticFacts
  dsimp only
  rw [hmissing]
  split
  · next hall => exact .reused hall hfound (hmoved _)
  · split
    · next hask => exact .refused hask (hmoved _)
    · next fresh requests hask =>
        have hall : ∀ n, ((collect codes (live weakrefable s ctx now).get).setAll fresh.rows).get n =
            (fresh.get n).or (if n ∈ codes then (live weakrefable s ctx now).get n else none) := by
          intro n
          rw [get_setAll, lastOf_of_unique, hfound]
        refine .filled hask hall (fun n f hf => ?_) (fun hle => ?_)
        · split at hf
          · next hc =>
              have hput := get_of_trim hf
              rw [get_setAllLast, lastOf_of_unique, hmoved, Option.or_eq_some_iff] at hput
              exact hput.imp (fun h => ⟨h, attach_cacheable hc.1, hc.2⟩) And.right
          · rw [hmoved] at hf
            exact .inr hf
        · split
          · exact trim_length _ _
          · exact live_length (hmoved _) hle

/-- What holds between lookups: the entries were read through the context the reference leads to. -/
structure Inv (a : InstrumentAdapter) (log : List (Request Ctx)) (s : State Ctx) : Prop where
  bounded : s.metadata.rows.length ≤ a.metadataCapacity
  served : ∀ ctx, s.context = some ctx → ∀ name f, s.metadata.get name = some f → Served a log ctx name f

/-- What a lookup promises, by the requests made before it and those it makes. -/
structure Transparent (a : InstrumentAdapter) (log : List (Request Ctx)) (s : State Ctx) (ctx : Ctx)
    (codes : List String) (now : ℚ) (o : Outcome Ctx) : Prop where
  read_through : ∀ found, o.result = .ok found → ∀ name f, found.get name = some f →
    Served a (log ++ o.requests) ctx name f
  unexpired : ∀ found, o.result = .ok found → ∀ name f, found.get name = some f →
    Cached s ctx now name f ∨ Served a o.requests ctx name f
  present : ∀ found, o.result = .ok found → ∀ name, (found.get name).isSome ↔
    name ∈ codes ∧ ((∃ f, Cached s ctx now name f) ∨ ∃ f, Served a o.requests ctx name f)
  kept : ∀ name f, o.state.metadata.get name = some f →
    o.state.context = some ctx ∧ Served a (log ++ o.requests) ctx name f
  added : ∀ name f, o.state.metadata.get name = some f → Cached s ctx now name f ∨
    (∃ found, o.result = .ok found ∧ found.get name = some f) ∧ Served a o.requests ctx name f
  bounded : o.state.metadata.rows.length ≤ a.metadataCapacity

omit [DecidableEq Ctx] in
theorem Cached.served (h : Cached s ctx now name f) (hinv : Inv a log s) : Served a log ctx name f :=
  hinv.served ctx h.1 name f h.2.1

theorem Cached.context (h : Cached s ctx now name f) : (attach weakrefable s ctx).1.context = some ctx := by
  unfold attach
  rw [if_pos h.1]
  exact h.1

theorem hit_iff : (if name ∈ codes then (live weakrefable s ctx now).get name else none) = some f ↔
    name ∈ codes ∧ Cached s ctx now name f := by
  split
  · next h => exact live_get.trans (and_iff_right h).symm
  · next h => exact iff_of_false (by simp) (fun hf => h hf.1)

theorem Looked.transparent (h : Looked weakrefable a s ctx codes now ask o) (hinv : Inv a log s) :
    Transparent a log s ctx codes now o := by
  have hold : ∀ name f, (live weakrefable s ctx now).get name = some f →
      (attach weakrefable s ctx).1.context = some ctx ∧ ∀ requests, Served a (log ++ requests) ctx name f := by
    intro name f hf
    have hc := live_get.mp hf
    exact ⟨hc.context, fun requests => (hc.served hinv).mono (List.subset_append_left log requests)⟩
  cases h with
  | @reused found kept hall hfound hkept =>
      have hhit : ∀ name f, found.get name = some f ↔ name ∈ codes ∧ Cached s ctx now name f := by
        intro name f
        rw [hfound, hit_iff]
      refine ⟨?_, ?_, ?_, ?_, ?_, live_length hkept hinv.bounded⟩
      · rintro found ⟨⟩ name f hf
        exact ((hhit name f).mp hf).2.served hinv |>.mono (List.subset_append_left log [])
      · rintro found ⟨⟩ name f hf
        exact .inl ((hhit name f).mp hf).2
      · rintro found ⟨⟩ name
        rw [Option.isSome_iff_exists]
        constructor
        · rintro ⟨f, hf⟩
          obtain ⟨hn, hc⟩ := (hhit name f).mp hf
          exact ⟨hn, .inl ⟨f, hc⟩⟩
        · rintro ⟨hn, ⟨f, hc⟩ | ⟨f, r, hr, -⟩⟩
          · exact ⟨f, (hhit name f).mpr ⟨hn, hc⟩⟩
          · exact absurd hr List.not_mem_nil
      · intro name f hf
        obtain ⟨hctx, hs⟩ := hold name f ((hkept name).symm.trans hf)
        exact ⟨hctx, hs _⟩
      · intro name f hf
        exact .inl (live_get.mp ((hkept name).symm.trans hf))
  | refused hask hkept =>
      refine ⟨nofun, nofun, nofun, ?_, ?_, live_length hkept hinv.bounded⟩
      · intro name f hf
        obtain ⟨hctx, hs⟩ := hold name f ((hkept name).symm.trans hf)
        exact ⟨hctx, hs _⟩
      · intro name f hf
        exact .inl (live_get.mp ((hkept name).symm.trans hf))
  | @filled fresh found kept requests hask hfound hkept hlength =>
      have hfresh : ∀ name f, fresh.get name = some f → Served a requests ctx name f :=
        fun name f => (classifications_served hask).1 f
      have hcases : ∀ name f, found.get name = some f → Cached s ctx now name f ∨ Served a requests ctx name f := by
        intro name f hf
        rw [hfound, Option.or_eq_some_iff, hit_iff] at hf
        rcases hf with hf | ⟨-, -, hc⟩
        · exact .inr (hfresh name f hf)
        · exact .inl hc
      refine ⟨?_, ?_, ?_, ?_, ?_, hlength hinv.bounded⟩
      · rintro found ⟨⟩ name f hf
        rcases hcases name f hf with hc | hs
        · exact (hc.served hinv).mono (List.subset_append_left log requests)
        · exact hs.mono (List.subset_append_right log requests)
      · rintro found ⟨⟩ name f hf
        exact hcases name f hf
      · rintro found ⟨⟩ name
        rw [hfound, Option.isSome_or, Bool.or_eq_true, (classifications_served hask).2, Option.isSome_iff_exists]
        constructor
        · rintro (⟨f, hs⟩ | ⟨f, hf⟩)
          · exact ⟨(mem_missing.mp (classifications_mem hask hs)).1, .inr ⟨f, hs⟩⟩
          · obtain ⟨hn, hc⟩ := hit_iff.mp hf
            exact ⟨hn, .inl ⟨f, hc⟩⟩
        · rintro ⟨hn, ⟨f, hc⟩ | hs⟩
          · exact .inr ⟨f, hit_iff.mpr ⟨hn, hc⟩⟩
          · exact .inl hs
      · intro name f hf
        rcases hkept name f hf with ⟨hf, hctx, -⟩ | hf
        · exact ⟨hctx, (hfresh name f hf).mono (List.subset_append_right log requests)⟩
        · obtain ⟨hctx, hs⟩ := hold name f hf
          exact ⟨hctx, hs _⟩
      · intro name f hf
        rcases hkept name f hf with ⟨hf, -, -⟩ | hf
        · refine .inr ⟨⟨found, rfl, ?_⟩, hfresh name f hf⟩
          rw [hfound, hf]
          rfl
        · exact .inl (live_get.mp hf)

omit [DecidableEq Ctx] in
theorem inv_init : Inv a [] (State.init : State Ctx) :=
  ⟨Nat.zero_le _, nofun⟩

omit [DecidableEq Ctx] in
theorem Transparent.inv (h : Transparent a log s ctx codes now o) :
    Inv a (log ++ o.requests) o.state := by
  refine ⟨h.bounded, fun ctx' hctx name f hf => ?_⟩
  obtain ⟨hcontext, hs⟩ := h.kept name f hf
  rw [hctx] at hcontext
  cases hcontext
  exact hs

theorem Reachable.inv {provider : Ctx → Provider → Prop} (h : Reachable weakrefable a provider log s) : Inv a log s := by
  induction h with
  | init => exact inv_init
  | collected _ ih => exact ⟨ih.bounded, nofun⟩
  | lookup ctx codes now ask _ _ ih => exact (staticFacts_looked.transparent ih).inv

end Lookup

end MoomooMcp.InstrumentMetadata
