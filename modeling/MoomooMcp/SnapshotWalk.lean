import MoomooMcp.ClientAuthorization
import MoomooMcp.Pagination

namespace MoomooMcp

namespace QuerySnapshots

open Intent Json ClientAuthorization OrderedDict

variable {c : Cache} {grants : Grants} {key : String} {s : Snapshot} {offset limit n : ℕ} {p : QueryPage} {now : ℚ}
  {query : Query}

/-- The page of a snapshot that begins at an offset. -/
def slice (s : Snapshot) (key : String) (offset limit : ℕ) : QueryPage where
  items := (s.items.drop offset).take limit
  nextCursor :=
    if offset + ((s.items.drop offset).take limit).length < s.items.length then
      some (key ++ ":" ++ toString (offset + ((s.items.drop offset).take limit).length))
    else none
  totalRows := s.items.length
  returnedRows := ((s.items.drop offset).take limit).length
  scope := s.scope
  fetchedAt := s.fetchedAt

theorem page_ok : page grants s key offset limit = .ok p ↔
    checkAccountAccess grants s.scope.trdEnv s.scope.accId false = .ok () ∧ p = slice s key offset limit := by
  unfold page
  rw [Checks.bind_ok]
  constructor
  · rintro ⟨_, ha, h⟩
    cases h
    exact ⟨ha, rfl⟩
  · rintro ⟨ha, rfl⟩
    exact ⟨(), ha, rfl⟩

/-- A page that begins on a boundary and is not the last one is full. -/
theorem slice_cursor (h : offset ≤ s.items.length) :
    (slice s key offset limit).nextCursor =
      if offset + limit < s.items.length then some (key ++ ":" ++ toString (offset + limit)) else none := by
  unfold slice
  dsimp only
  rw [List.length_take, List.length_drop]
  by_cases hmore : offset + limit < s.items.length
  · have hfull : min limit (s.items.length - offset) = limit := by omega
    rw [hfull]
  · have hrest : min limit (s.items.length - offset) = s.items.length - offset := by omega
    rw [hrest, if_neg hmore, if_neg (by omega)]

theorem validateLimit_ok {v : Value} (h : validateLimit v = .ok n) : 1 ≤ n ∧ n ≤ maxPageSize := by
  unfold validateLimit at h
  split at h
  · split at h
    · cases h
    · split at h
      · cases h
      · next d hi hb =>
          cases h
          push Not at hb
          obtain ⟨hlow, hhigh⟩ := hb
          omega
  · cases h

theorem limitOf_ok (h : limitOf query = .ok limit) : 1 ≤ limit ∧ limit ≤ maxPageSize := by
  obtain ⟨v, -, h⟩ := Checks.bind_ok.mp h
  exact validateLimit_ok h

section Cursor

theorem toString_length (h : n < 10 ^ 8) : (toString n).length ≤ 8 := by
  have hdigits : (toString n).toList = Nat.toDigits 10 n := Nat.toList_repr
  rw [← String.length_toList, hdigits]
  exact (Nat.length_toDigits_le_iff (by decide) (by decide)).mpr h

theorem split_colon {cs : List Char} (h : ':' ∉ cs) (ds : List Char) :
    (cs ++ ':' :: ds).takeWhile (· ≠ ':') = cs ∧ (cs ++ ':' :: ds).dropWhile (· ≠ ':') = ':' :: ds := by
  have hall : ∀ c ∈ cs, decide (c ≠ ':') = true := fun c hc => decide_eq_true (fun he => h (he ▸ hc))
  constructor
  · rw [List.takeWhile_append_of_pos hall]
    simp
  · rw [List.dropWhile_append_of_pos hall]
    simp

theorem dropWhile_colon {cs : List Char} (h : ':' ∈ cs) :
    cs.dropWhile (· ≠ ':') = ':' :: (cs.dropWhile (· ≠ ':')).drop 1 := by
  induction cs with
  | nil => cases h
  | cons c cs ih =>
      by_cases hc : c = ':'
      · simp [hc]
      · have hmem : ':' ∈ cs := (List.mem_cons.mp h).resolve_left (Ne.symm hc)
        rw [List.dropWhile_cons_of_pos (by simpa using hc)]
        exact ih hmem

theorem split_text {t : String} (h : ':' ∈ t.toList) :
    t = String.ofList (t.toList.takeWhile (· ≠ ':')) ++ ":" ++ String.ofList ((t.toList.dropWhile (· ≠ ':')).drop 1) := by
  apply String.toList_injective
  have hdrop : [':'] ++ (t.toList.dropWhile (· ≠ ':')).drop 1 = t.toList.dropWhile (· ≠ ':') := (dropWhile_colon h).symm
  have hcolon : ":".toList = [':'] := rfl
  simp only [String.toList_append, String.toList_ofList, List.append_assoc]
  rw [hcolon, hdrop]
  exact List.takeWhile_append_dropWhile.symm

/-- What a page writes, a call reads. -/
theorem parseCursor_written (hlength : key.length = 32) (hcolon : ':' ∉ key.toList) (hn : n < 10 ^ 8) :
    parseCursor (key ++ ":" ++ toString n) = .ok (key, n) := by
  have hchars : (key ++ ":" ++ toString n).toList = key.toList ++ ':' :: (toString n).toList := by simp
  obtain ⟨htake, hdrop⟩ := split_colon hcolon (toString n).toList
  have hposition := toString_length hn
  have htotal : (key ++ ":" ++ toString n).length ≤ 128 := by
    rw [String.length_append, String.length_append, hlength]
    have hone : ":".length = 1 := rfl
    omega
  unfold parseCursor
  rw [hchars, htake, hdrop, List.drop_one, List.tail_cons, String.ofList_toList, String.ofList_toList]
  dsimp only
  rw [if_neg (not_lt.mpr htotal), if_neg, toNat_toString]
  have hdecimal := isDecimal_toString n
  simpa using ⟨hdecimal, hposition⟩

theorem parseCursor_ok {t : String} (h : parseCursor t = .ok (key, n)) :
    ∃ position, t = key ++ ":" ++ position ∧ Text.isDecimal position = true ∧ Text.toNat position = n := by
  unfold parseCursor at h
  dsimp only at h
  split at h
  · cases h
  · split at h
    · cases h
    · next hparts =>
        cases h
        rw [Bool.or_eq_true, Bool.or_eq_true, not_or, not_or] at hparts
        obtain ⟨⟨hcolon, hdecimal⟩, -⟩ := hparts
        refine ⟨_, ?_, by simpa using hdecimal, rfl⟩
        exact split_text (by simpa using hcolon)

end Cursor

/-- Everything that a cursor may lead to. -/
theorem continuePage_ok {cursor : Value} (h : (continuePage c grants cursor query now).1 = .ok p) :
    ∃ t key offset limit s, cursor = .text t ∧ limitOf query = .ok limit ∧ parseCursor t = .ok (key, offset) ∧
      c.snapshots.get key = some s ∧ same (.object s.query.1) (.object query.1) = true ∧
      limit ≤ offset ∧ offset < s.items.length ∧ offset % limit = 0 ∧ page grants s key offset limit = .ok p := by
  unfold continuePage at h
  split at h
  · cases h
  · next limit t hlimit =>
      split at h
      · cases h
      · next key offset hparse =>
          dsimp only at h
          split at h
          · cases h
          · next s hs =>
              split at h
              · cases h
              · next hsame =>
                  split at h
                  · cases h
                  · next hoffset =>
                      push Not at hoffset
                      obtain ⟨hlow, hhigh, hmod⟩ := hoffset
                      refine ⟨t, key, offset, limit, s, rfl, hlimit, hparse, expire_shrinks key s hs, ?_, hlow, hhigh, hmod, h⟩
                      simpa using hsame
  · cases h

theorem continuePage_cache (grants : Grants) (cursor : Value) (query : Query) (now : ℚ) :
    (continuePage c grants cursor query now).2 = c ∨ (continuePage c grants cursor query now).2 = c.expire now := by
  unfold continuePage
  split
  · exact .inl rfl
  · split
    · exact .inl rfl
    · dsimp only
      split
      · exact .inr rfl
      · split
        · exact .inr rfl
        · split
          · exact .inr rfl
          · exact .inr rfl
  · exact .inl rfl

end QuerySnapshots

namespace TradeQueries

open Intent Json ClientAuthorization QuerySnapshots OrderedDict

variable {sys sys' : System} {call : Call} {limit : ℕ} {s : Snapshot}

/-- What is known of a snapshot by the way it is made. -/
structure Made (s : Snapshot) : Prop where
  limit : ∃ n, limitOf s.query = .ok n
  rows : s.items.length ≤ maxSnapshotRows
  size : s.size ≤ maxCacheBytes
  regular : Regular (.object s.query.1)

/-- A response that may be kept: not too many rows, in JSON, and not too long there. -/
structure Fits (q : Query) (items : List Value) (scope : QueryScope) : Prop where
  rows : items.length ≤ maxSnapshotRows
  encoded : allowed (payload q items scope) = .ok ()
  bytes : size (payload q items scope) ≤ maxSnapshotBytes

theorem snapshotOf_ok {q : Query} {items : List Value} {scope : QueryScope} {fetchedAt : String} {clock : ℚ} :
    snapshotOf q items scope fetchedAt clock = .ok (limit, s) ↔ limitOf q = .ok limit ∧ Fits q items scope ∧
      s = ⟨q, items, scope, fetchedAt, clock + snapshotTtlSeconds, size (payload q items scope)⟩ := by
  unfold snapshotOf
  rw [Checks.bind_ok]
  constructor
  · rintro ⟨n, hn, h⟩
    split at h
    · cases h
    · next hrows =>
        obtain ⟨_, hallowed, h⟩ := Checks.bind_ok.mp h
        split at h
        · cases h
        · next hsize =>
            cases h
            exact ⟨hn, ⟨not_lt.mp hrows, hallowed, not_lt.mp hsize⟩, rfl⟩
  · rintro ⟨hn, ⟨hrows, hallowed, hsize⟩, rfl⟩
    refine ⟨limit, hn, ?_⟩
    rw [if_neg (not_lt.mpr hrows), Checks.bind_ok]
    refine ⟨(), hallowed, ?_⟩
    rw [if_neg]
    · rfl
    · exact not_lt.mpr hsize

theorem made_of_snapshotOf {q : Query} {items : List Value} {scope : QueryScope} {fetchedAt : String} {clock : ℚ}
    (h : snapshotOf q items scope fetchedAt clock = .ok (limit, s)) : Made s ∧ limitOf s.query = .ok limit := by
  obtain ⟨hn, ⟨hrows, hallowed, hsize⟩, rfl⟩ := snapshotOf_ok.mp h
  rw [payload, allowed] at hallowed
  have hquery : allowed (.object q.1) = .ok () :=
    allowedFields_iff.mp hallowed ("query", .object q.1) (List.mem_cons_of_mem _ List.mem_cons_self)
  have hsmall : maxSnapshotBytes ≤ maxCacheBytes := by decide
  exact ⟨⟨⟨limit, hn⟩, hrows, hsize.trans hsmall, regular_of_allowed _ q.2 hquery⟩, hn⟩

/-- What a call asks the snapshots to make. -/
theorem request_create (h : request call = .ok (.create limit s)) : Value.get call.params.1 "cursor" = .null ∧
    ∃ environment q fetched, prepare call = .ok (environment, q) ∧ call.answer = .ok fetched ∧
      snapshotOf q fetched.views (scopeOf call.method call.params.1 environment fetched.account) fetched.fetchedAt
        call.clock = .ok (limit, s) := by
  obtain ⟨⟨environment, q⟩, hp, h⟩ := Checks.bind_ok.mp h
  dsimp only at h
  split at h
  · next hnull =>
      obtain ⟨fetched, ha, h⟩ := Checks.bind_ok.mp h
      obtain ⟨⟨n, s'⟩, hs, h⟩ := Checks.bind_ok.mp h
      cases h
      exact ⟨hnull, environment, q, fetched, hp, ha, hs⟩
  · cases h

/-- A call with a cursor asks for the page it leads to. -/
theorem request_proceed {environment : String} {q : Query} {t : String} (hp : prepare call = .ok (environment, q))
    (hc : Value.get call.params.1 "cursor" = .text t) : request call = .ok (.proceed (.text t) q) := by
  unfold request
  rw [hp, Checks.ok_bind rfl]
  dsimp only
  rw [hc]
  rfl

/-- The snapshots kept are snapshots made, under tokens of their own. -/
structure Inv (sys : System) : Prop where
  accounted : Accounted sys.cache
  cached : ∀ key s, sys.cache.snapshots.get key = some s → (key, s) ∈ sys.drawn
  unique : (sys.drawn.map Prod.fst).Nodup
  drawn : ∀ r ∈ sys.drawn, Token r.1 ∧ Made r.2

theorem inv_initial : Inv System.initial := ⟨accounted_empty, nofun, List.nodup_nil, nofun⟩

theorem Inv.snapshot (h : Inv sys) {key : String} {s s' : Snapshot} (hs : (key, s) ∈ sys.drawn)
    (hs' : (key, s') ∈ sys.drawn) : s' = s :=
  (Prod.mk.inj (List.inj_on_of_nodup_map h.unique hs' hs rfl)).2

/-- A call leaves a part of the cache, and in a creation the new snapshot with it. -/
theorem Inv.step (h : Inv sys) (hstep : next sys call = some sys') (hfresh : Fresh sys call sys') : Inv sys' := by
  cases hstep
  have hkeep : ∀ c : Cache, Accounted c → Shrinks sys.cache c → call.draws = [] →
      Inv ⟨c, sys.drawn ++ call.draws⟩ := by
    intro c hc hshrinks hdraws
    rw [hdraws, List.append_nil]
    exact ⟨hc, fun key s hs => h.cached key s (hshrinks key s hs), h.unique, h.drawn⟩
  unfold page
  split
  · next e hr => exact hkeep _ h.accounted (fun _ _ hs => hs) (by unfold Call.draws; rw [hr])
  · next limit s hr =>
      have hdraws : call.draws = [(call.token, s)] := by
        unfold Call.draws
        rw [hr]
      obtain ⟨htoken, hnew⟩ := hfresh (call.token, s) (by rw [hdraws]; exact List.mem_cons_self)
      obtain ⟨-, _, _, _, -, -, hs⟩ := request_create hr
      have hmade := (made_of_snapshotOf hs).1
      have hnone : sys.cache.snapshots.get call.token = none := by
        rw [Option.eq_none_iff_forall_ne_some]
        exact fun s' hs' => hnew (List.mem_map.mpr ⟨_, h.cached _ s' hs', rfl⟩)
      obtain ⟨haccounted, hget⟩ := create_cache call.grants limit call.now h.accounted hmade.size hnone
      rw [hdraws]
      refine ⟨haccounted, fun key' s' hs' => ?_, ?_, ?_⟩
      · rcases hget key' s' hs' with hold | ⟨rfl, rfl⟩
        · exact List.mem_append_left _ (h.cached key' s' hold)
        · exact List.mem_append_right _ List.mem_cons_self
      · rw [List.map_append, List.map_singleton]
        exact h.unique.append (List.nodup_singleton _) (List.disjoint_singleton.mpr hnew)
      · intro r hr
        rcases List.mem_append.mp hr with hr | hr
        · exact h.drawn r hr
        · rw [List.mem_singleton.mp hr]
          exact ⟨htoken, hmade⟩
  · next cursor q hr =>
      have hdraws : call.draws = [] := by
        unfold Call.draws
        rw [hr]
      rcases continuePage_cache call.grants cursor q call.now with hc | hc
      · rw [hc]
        exact hkeep _ h.accounted (fun _ _ hs => hs) hdraws
      · rw [hc]
        exact hkeep _ (expire_keeps accounted_remove h.accounted) expire_shrinks hdraws

theorem Inv.path (h : Inv sys) {as : List Call} (hp : Machine.Path next Fresh sys as sys') : Inv sys' :=
  hp.invariant h (fun _ _ _ hi hs hf => hi.step hs hf)

theorem reaches_inv (h : Machine.Reaches (· = System.initial) next Fresh sys) : Inv sys := by
  obtain ⟨_, as, rfl, hp⟩ := h
  exact inv_initial.path hp

/-- A snapshot made stays among those made. -/
theorem drawn_path {as : List Call} (hp : Machine.Path next Fresh sys as sys') {r : String × Snapshot}
    (hr : r ∈ sys.drawn) : r ∈ sys'.drawn := by
  refine hp.invariant (P := fun u => r ∈ u.drawn) hr (fun u call v hu hstep _ => ?_)
  cases hstep
  exact List.mem_append_left _ hu

section Equality

theorem sameFields_lookup {f g : Fields} (h : sameFields f g = true) {k : String} {v : Value} (hv : f.lookup k = some v) :
    ∃ w, g.lookup k = some w ∧ same v w = true := by
  induction f with
  | nil => cases hv
  | cons p f ih =>
      obtain ⟨k', v'⟩ := p
      rw [sameFields, Bool.and_eq_true] at h
      obtain ⟨hfirst, hrest⟩ := h
      by_cases hk : k = k'
      · subst hk
        rw [List.lookup_cons_self] at hv
        cases hv
        split at hfirst
        · next w hw => exact ⟨w, hw, hfirst⟩
        · cases hfirst
      · rw [List.lookup_cons, beq_eq_false_iff_ne.mpr hk] at hv
        exact ih hrest hv

theorem validateLimit_int {v : Value} {n : ℕ} (h : validateLimit v = .ok n) :
    ∃ d : Decimal, v = .number (.finite d) ∧ d.isInt = true ∧ n = d.coefficient.toNat := by
  unfold validateLimit at h
  split at h
  · next d =>
      split at h
      · cases h
      · next hi =>
          split at h
          · cases h
          · cases h
            exact ⟨d, rfl, by simpa using hi, rfl⟩
  · cases h

theorem validateLimit_same {v w : Value} (h : same v w = true) {n m : ℕ} (hv : validateLimit v = .ok n)
    (hw : validateLimit w = .ok m) : n = m := by
  obtain ⟨d, rfl, hd, rfl⟩ := validateLimit_int hv
  obtain ⟨e, rfl, he, rfl⟩ := validateLimit_int hw
  rw [same, decide_eq_true_iff, amount?, Option.some.injEq, Decimal.amount, Decimal.amount, if_pos hd, if_pos he,
    Decimal.value_of_int hd, Decimal.value_of_int he, Rat.intCast_inj] at h
  rw [h]

theorem limitOf_same {q r : Query} (h : same (.object q.1) (.object r.1) = true) {n m : ℕ} (hq : limitOf q = .ok n)
    (hr : limitOf r = .ok m) : n = m := by
  rw [same, Bool.and_eq_true] at h
  obtain ⟨v, hv, hn⟩ := Checks.bind_ok.mp hq
  obtain ⟨w, hw, hm⟩ := Checks.bind_ok.mp hr
  obtain ⟨w', hw', hsame⟩ := sameFields_lookup h.2 (Value.item_ok.mp hv)
  rw [Value.item_ok.mp hw] at hw'
  cases hw'
  exact validateLimit_same hsame hn hm

end Equality

/-- A call for the page after another one: it is as the first, but for the cursor, and
comes from a client that may read the account. -/
structure Continues (first call : Call) (last : QueryPage) : Prop where
  method : call.method = first.method
  params : call.params.1.filter (fun p => p.1 ≠ "cursor") = first.params.1.filter (fun p => p.1 ≠ "cursor")
  cursor : ∃ t, last.nextCursor = some t ∧ Value.get call.params.1 "cursor" = .text t
  access : checkAccountAccess call.grants last.scope.trdEnv last.scope.accId false = .ok ()

/-- The pages that are got by following the cursors of one query, whatever calls come between. -/
inductive Walk (first : Call) : List QueryPage → QueryPage → System → Prop
  | first {sys sys' p} (hsys : Machine.Reaches (· = System.initial) next Fresh sys) (hstep : next sys first = some sys')
      (hfresh : Fresh sys first sys') (hnew : Value.get first.params.1 "cursor" = .null)
      (hpage : (page sys.cache first).1 = .ok p) : Walk first [p] p sys'
  | further {pages last sys as sys' call sys'' p} (h : Walk first pages last sys)
      (hrun : Machine.Path next Fresh sys as sys') (hcall : Continues first call last) (hstep : next sys' call = some sys'')
      (hpage : (page sys'.cache call).1 = .ok p) : Walk first (pages ++ [p]) p sys''

theorem lookup_filter {f : Fields} {k name : String} (h : k ≠ name) :
    (f.filter (fun p => p.1 ≠ name)).lookup k = f.lookup k := by
  induction f with
  | nil => rfl
  | cons p f ih =>
      by_cases hp : p.1 = name
      · have hk : k ≠ p.1 := fun he => h (he.trans hp)
        rw [List.filter_cons_of_neg (by simpa using hp), ih, List.lookup_cons, beq_eq_false_iff_ne.mpr hk]
      · rw [List.filter_cons_of_pos (by simpa using hp), List.lookup_cons, List.lookup_cons, ih]

theorem item_filter {f g : Fields} {k : String} (h : k ≠ "cursor")
    (hfg : f.filter (fun p => p.1 ≠ "cursor") = g.filter (fun p => p.1 ≠ "cursor")) : Value.item f k = Value.item g k := by
  unfold Value.item
  rw [← lookup_filter h, hfg, lookup_filter h]

/-- The cursor takes no part in the checks, nor in the query. -/
theorem Continues.prepare {first call : Call} {last : QueryPage} (h : Continues first call last) :
    prepare call = prepare first := by
  have hquery : ∀ environment account, query first.method call.params environment account =
      query first.method first.params environment account := by
    intro environment account
    apply Subtype.ext
    unfold query queryFields
    dsimp only
    rw [h.params]
  unfold TradeQueries.prepare
  rw [item_filter (by decide) h.params, item_filter (by decide) h.params, item_filter (by decide) h.params, h.method]
  simp only [hquery]

/-- The first call of a walk, with the snapshot that it makes. -/
structure Begins (first : Call) (environment : String) (q : Query) (fetched : Fetched) (limit : ℕ) (s : Snapshot) : Prop where
  prepared : prepare first = .ok (environment, q)
  answered : first.answer = .ok fetched
  snapshot : snapshotOf q fetched.views (scopeOf first.method first.params.1 environment fetched.account)
    fetched.fetchedAt first.clock = .ok (limit, s)

theorem Begins.items {first : Call} {environment : String} {q : Query} {fetched : Fetched}
    (h : Begins first environment q fetched limit s) : s.items = fetched.views ∧ s.query = q ∧ limitOf q = .ok limit := by
  obtain ⟨hn, -, rfl⟩ := snapshotOf_ok.mp h.snapshot
  exact ⟨rfl, rfl, hn⟩

/-- How far a walk has come: its pages are the first ones, each of them full but the last. -/
structure Walked (first : Call) (limit : ℕ) (s : Snapshot) (pages : List QueryPage) (last : QueryPage) (sys : System) :
    Prop where
  inv : Inv sys
  drawn : (first.token, s) ∈ sys.drawn
  nonempty : 1 ≤ pages.length
  items : pages.flatMap QueryPage.items = s.items.take (pages.length * limit)
  scope : last.scope = s.scope
  cursor : last.nextCursor =
    if pages.length * limit < s.items.length then some (first.token ++ ":" ++ toString (pages.length * limit)) else none

section Walks

variable {first : Call} {environment : String} {q : Query} {fetched : Fetched} {pages : List QueryPage} {last p : QueryPage}

/-- The page that the cursor of a walk leads to, or the refusal of one that has expired. -/
theorem Walked.proceed (h : Walked first limit s pages last sys) (hb : Begins first environment q fetched limit s)
    (hcall : Continues first call last) :
    pages.length * limit < s.items.length ∧
      ((page sys.cache call).1 = .error cursorExpired ∨
        (page sys.cache call).1 = .ok (slice s first.token (pages.length * limit) limit)) := by
  obtain ⟨t, ht, hcursor⟩ := hcall.cursor
  rw [h.cursor] at ht
  split at ht
  · next hmore =>
      cases ht
      refine ⟨hmore, ?_⟩
      obtain ⟨⟨hlength, hcolon⟩, hmade⟩ := h.inv.drawn _ h.drawn
      obtain ⟨-, hquery, hlimit⟩ := hb.items
      have hparse : parseCursor (first.token ++ ":" ++ toString (pages.length * limit)) =
          .ok (first.token, pages.length * limit) := by
        refine parseCursor_written hlength hcolon (hmore.trans_le (hmade.rows.trans (by decide)))
      have hrequest := request_proceed (hcall.prepare.trans hb.prepared) hcursor
      unfold page
      rw [hrequest]
      dsimp only [continuePage]
      rw [hlimit]
      dsimp only
      rw [hparse]
      dsimp only
      split
      · exact .inl rfl
      · next s' hs' =>
          have hsnapshot := h.inv.snapshot h.drawn (h.inv.cached _ _ (expire_shrinks _ _ hs'))
          subst hsnapshot
          have hsame : same (.object s'.query.1) (.object q.1) = true := by
            rw [← hquery]
            exact (same_iff _ _ hmade.regular hmade.regular).mpr rfl
          have hoffset : ¬ (pages.length * limit < limit ∨ s'.items.length ≤ pages.length * limit ∨
              pages.length * limit % limit ≠ 0) := by
            have hle := Nat.le_mul_of_pos_left limit h.nonempty
            push Not
            exact ⟨hle, hmore, Nat.mul_mod_left _ _⟩
          rw [if_neg (by simp [hsame]), if_neg hoffset]
          refine .inr (page_ok.mpr ⟨?_, rfl⟩)
          rw [← h.scope]
          exact hcall.access
  · cases ht

/-- The page at an offset follows what the pages before it hold. -/
theorem slice_items (k : ℕ) : s.items.take (k * limit) ++ (slice s first.token (k * limit) limit).items =
    s.items.take ((k + 1) * limit) := by
  rw [Nat.succ_mul, List.take_add]
  rfl

theorem Begins.request (hb : Begins first environment q fetched limit s) (hnew : Value.get first.params.1 "cursor" = .null) :
    request first = .ok (.create limit s) := by
  unfold TradeQueries.request
  rw [hb.prepared, Checks.ok_bind rfl]
  dsimp only
  rw [hnew]
  dsimp only
  rw [hb.answered, Checks.ok_bind rfl, hb.snapshot]
  rfl

theorem Begins.walked (hb : Begins first environment q fetched limit s) (hinv : Inv sys')
    (hnew : Value.get first.params.1 "cursor" = .null) (hstep : next sys first = some sys')
    (hpage : (page sys.cache first).1 = .ok p) : Walked first limit s [p] p sys' := by
  have hrequest := hb.request hnew
  have hp : p = slice s first.token (0 * limit) limit := by
    unfold page at hpage
    rw [hrequest] at hpage
    rw [Nat.zero_mul]
    exact (page_ok.mp ((create_result ..).symm.trans hpage)).2
  refine ⟨hinv, ?_, le_rfl, ?_, ?_, ?_⟩
  · cases hstep
    unfold Call.draws
    rw [hrequest]
    exact List.mem_append_right _ List.mem_cons_self
  · rw [hp, List.flatMap_singleton, List.length_singleton, Nat.zero_mul, Nat.one_mul]
    rfl
  · rw [hp]
    rfl
  · rw [hp, slice_cursor (by omega), Nat.zero_mul, Nat.zero_add, List.length_singleton, Nat.one_mul]

/-- One page more. -/
theorem Walked.further (h : Walked first limit s pages last sys) (hb : Begins first environment q fetched limit s)
    (hcall : Continues first call last) (hstep : next sys call = some sys') (hpage : (page sys.cache call).1 = .ok p) :
    Walked first limit s (pages ++ [p]) p sys' := by
  obtain ⟨hmore, hproceed⟩ := h.proceed hb hcall
  rw [hpage] at hproceed
  have hp : p = slice s first.token (pages.length * limit) limit :=
    hproceed.elim (fun he => nomatch he) (fun he => Except.ok.inj he)
  have hdraws : call.draws = [] := by
    obtain ⟨t, -, ht⟩ := hcall.cursor
    unfold Call.draws
    rw [request_proceed (hcall.prepare.trans hb.prepared) ht]
  have hlength : (pages ++ [p]).length = pages.length + 1 := by rw [List.length_append, List.length_singleton]
  refine ⟨h.inv.step hstep (by rw [Fresh, hdraws]; exact nofun), ?_, ?_, ?_, ?_, ?_⟩
  · cases hstep
    exact List.mem_append_left _ h.drawn
  · rw [hlength]
    omega
  · rw [hlength, List.flatMap_append, List.flatMap_singleton, h.items, hp]
    exact slice_items pages.length
  · rw [hp]
    rfl
  · rw [hlength, hp, slice_cursor hmore.le, Nat.succ_mul]

theorem created_of_page {c : Cache} (hnew : Value.get call.params.1 "cursor" = .null) (hpage : (page c call).1 = .ok p) :
    ∃ limit s, request call = .ok (.create limit s) := by
  cases hr : request call with
  | error e =>
      unfold page at hpage
      rw [hr] at hpage
      cases hpage
  | ok r =>
      obtain ⟨⟨environment, q⟩, -, h⟩ := Checks.bind_ok.mp hr
      dsimp only at h
      rw [hnew] at h
      dsimp only at h
      obtain ⟨fetched, -, h⟩ := Checks.bind_ok.mp h
      obtain ⟨⟨limit, s⟩, -, h⟩ := Checks.bind_ok.mp h
      cases h
      exact ⟨limit, s, rfl⟩

theorem Walk.walked (h : Walk first pages last sys) :
    ∃ environment q fetched limit s, Begins first environment q fetched limit s ∧ Walked first limit s pages last sys := by
  induction h with
  | @first sys sys' p hsys hstep hfresh hnew hpage =>
      have hinv := (reaches_inv hsys).step hstep hfresh
      obtain ⟨limit, s, hcreate⟩ := created_of_page hnew hpage
      obtain ⟨-, environment, q, fetched, hprepared, hanswered, hsnapshot⟩ := request_create hcreate
      have hb : Begins first environment q fetched limit s := ⟨hprepared, hanswered, hsnapshot⟩
      exact ⟨environment, q, fetched, limit, s, hb, hb.walked hinv hnew hstep hpage⟩
  | @further pages last sys as sys' call sys'' p h hrun hcall hstep hpage ih =>
      obtain ⟨environment, q, fetched, limit, s, hb, hw⟩ := ih
      have hnow : Walked first limit s pages last sys' :=
        { hw with inv := hw.inv.path hrun, drawn := drawn_path hrun hw.drawn }
      exact ⟨environment, q, fetched, limit, s, hb, hnow.further hb hcall hstep hpage⟩

end Walks

/-- A page that a cursor leads to is that of one snapshot, made for the same query with
the same page limit, and begins on a boundary of its pages. -/
structure Follows (sys : System) (call : Call) (t : String) (p : QueryPage) : Prop where
  named : ∃ key position limit s environment q, t = key ++ ":" ++ position ∧ Text.isDecimal position = true ∧
    (key, s) ∈ sys.drawn ∧ (∀ s', (key, s') ∈ sys.drawn → s' = s) ∧
    prepare call = .ok (environment, q) ∧ same (.object s.query.1) (.object q.1) = true ∧
    limitOf s.query = .ok limit ∧ limitOf q = .ok limit ∧
    limit ∣ Text.toNat position ∧ Text.toNat position < s.items.length ∧
    p = slice s key (Text.toNat position) limit

theorem Inv.follows (h : Inv sys) {t : String} {p : QueryPage} (hcursor : Value.get call.params.1 "cursor" = .text t)
    (hpage : (page sys.cache call).1 = .ok p) : Follows sys call t p := by
  cases hp : prepare call with
  | error e =>
      unfold page request at hpage
      rw [hp] at hpage
      cases hpage
  | ok prepared =>
      obtain ⟨environment, q⟩ := prepared
      unfold page at hpage
      rw [request_proceed hp hcursor] at hpage
      obtain ⟨t', key, offset, limit, s, ht, hlimit, hparse, hget, hsame, -, hmore, hmod, hs⟩ := continuePage_ok hpage
      cases ht
      obtain ⟨position, htext, hdecimal, rfl⟩ := parseCursor_ok hparse
      have hdrawn := h.cached key s hget
      obtain ⟨n, hn⟩ := (h.drawn _ hdrawn).2.limit
      have hlimits := limitOf_same hsame hn hlimit
      subst hlimits
      exact ⟨key, position, n, s, environment, q, htext, hdecimal, hdrawn, fun s' hs' => h.snapshot hdrawn hs', hp, hsame,
        hn, hlimit, Nat.dvd_of_mod_eq_zero hmod, hmore, (page_ok.mp hs).2⟩

/-- Every row is paged through once. In every state, the cache is accounted for, a cursor
leads to a page of the snapshot it names and of no other, a list within the limits gets its
first page, and whoever follows the cursors of it gets the next page as long as it has not
expired, and the whole list with the last. -/
theorem snapshot_pagination (h : Machine.Reaches (· = System.initial) next Fresh sys) :
    Accounted sys.cache ∧
    (∀ call t p, Value.get call.params.1 "cursor" = .text t → (page sys.cache call).1 = .ok p → Follows sys call t p) ∧
    (∀ call environment q fetched limit, Value.get call.params.1 "cursor" = .null →
      prepare call = .ok (environment, q) → limitOf q = .ok limit → call.answer = .ok fetched →
      Fits q fetched.views (scopeOf call.method call.params.1 environment fetched.account) →
      checkAccountAccess call.grants environment (toString fetched.account) false = .ok () →
        ∃ p, (page sys.cache call).1 = .ok p) ∧
    ∀ first pages last, Walk first pages last sys →
      ∃ environment q fetched limit s, Begins first environment q fetched limit s ∧ 1 ≤ limit ∧
        (last.nextCursor = none → pages.flatMap QueryPage.items = fetched.views) ∧
        (last.nextCursor ≠ none → pages.flatMap QueryPage.items = fetched.views.take (pages.length * limit) ∧
          pages.length * limit < fetched.views.length) ∧
        ∀ as sys' call, Machine.Path next Fresh sys as sys' → Continues first call last →
          (page sys'.cache call).1 = .error cursorExpired ∨ ∃ p, (page sys'.cache call).1 = .ok p := by
  have hinv := reaches_inv h
  refine ⟨hinv.accounted, fun call t p hc hp => hinv.follows hc hp, ?_, ?_⟩
  · intro call environment q fetched limit hnew hprepared hlimit hanswered hfits haccess
    have hb : Begins call environment q fetched limit _ :=
      ⟨hprepared, hanswered, snapshotOf_ok.mpr ⟨hlimit, hfits, rfl⟩⟩
    unfold page
    rw [hb.request hnew]
    exact ⟨_, (create_result ..).trans (page_ok.mpr ⟨haccess, rfl⟩)⟩
  · intro first pages last hwalk
    obtain ⟨environment, q, fetched, limit, s, hb, hw⟩ := hwalk.walked
    obtain ⟨hitems, -, hlimit⟩ := hb.items
    refine ⟨environment, q, fetched, limit, s, hb, (limitOf_ok hlimit).1, ?_, ?_, ?_⟩
    · intro hnone
      rw [hw.cursor] at hnone
      split at hnone
      · cases hnone
      · next hend => rw [hw.items, List.take_of_length_le (not_lt.mp hend), hitems]
    · intro hsome
      rw [hw.cursor] at hsome
      split at hsome
      · next hmore => exact ⟨by rw [hw.items, hitems], hitems ▸ hmore⟩
      · exact absurd rfl hsome
    · intro as sys' call hrun hcall
      have hnow : Walked first limit s pages last sys' :=
        { hw with inv := hw.inv.path hrun, drawn := drawn_path hrun hw.drawn }
      exact (hnow.proceed hb hcall).2.imp id (fun hp => ⟨_, hp⟩)

section Orders

def ordersQuery : Query :=
  ⟨[("limit", .number (.finite ⟨1, 0⟩)), ("trd_env", .text "real"), ("acc_id", .text "007"), ("cursor", .null)],
    by decide, trivial, trivial, trivial, trivial, trivial⟩

def twoOrders : Call where
  grants := none
  method := .ordersPage
  params := ordersQuery
  answer := .ok ⟨7, [.object [("order_id", .text "1")], .object [("order_id", .text "2")]], "2026-09-24T00:00:00Z"⟩
  clock := 0
  token := "abcdefghijklmnopqrstuvwxyz-_0123"
  now := 0

example : ((page Cache.empty twoOrders).1.toOption.bind QueryPage.nextCursor) = some "abcdefghijklmnopqrstuvwxyz-_0123:1" := by
  decide +kernel

def paged : System := ⟨(page Cache.empty twoOrders).2, twoOrders.draws⟩

theorem twoOrders_fresh : Fresh System.initial twoOrders paged := by
  intro r hr
  have hkey : ∀ r ∈ twoOrders.draws, r.1 = twoOrders.token := by
    intro r hr
    unfold Call.draws at hr
    split at hr
    · rw [List.mem_singleton.mp hr]
    · cases hr
  rw [hkey r hr]
  exact ⟨by decide, nofun⟩

theorem snapshot_pagination_two : Accounted paged.cache ∧ ∃ p, Walk twoOrders [p] p paged ∧
    ∀ as sys' call, Machine.Path next Fresh paged as sys' → Continues twoOrders call p →
      (page sys'.cache call).1 = .error cursorExpired ∨ ∃ p', (page sys'.cache call).1 = .ok p' := by
  have hinitial : Machine.Reaches (· = System.initial) next Fresh System.initial := .base rfl
  have hreaches : Machine.Reaches (· = System.initial) next Fresh paged := hinitial.step rfl twoOrders_fresh
  obtain ⟨haccounted, -, -, hwalks⟩ := snapshot_pagination hreaches
  obtain ⟨p, hp⟩ := Checks.ok_of_isSome (x := (page Cache.empty twoOrders).1) (by decide +kernel)
  have hwalk : Walk twoOrders [p] p paged := .first (.base rfl) rfl twoOrders_fresh rfl hp
  obtain ⟨_, _, _, _, _, -, -, -, -, hnext⟩ := hwalks twoOrders [p] p hwalk
  exact ⟨haccounted, p, hwalk, hnext⟩

end Orders

end TradeQueries

end MoomooMcp
