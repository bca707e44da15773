import MoomooMcp.Continuation
import MoomooMcp.KlineCursor

namespace MoomooMcp

namespace KlineCursor

open Intent Json Calendar OrderRules

variable {token : Bytes} {query query' : KlineQuery} {resolved : Window} {cursor : String}

/-- What is read of a dictionary that was written: the same keys, each with what is read of its value. -/
theorem reread_object {fields : Fields} (hf : (keys fields).Nodup) :
    ∃ g, reread (sortKeys (.object fields)) = .object g ∧
      ∀ k, Value.get g k = reread (sortKeys (Value.get fields k)) := by
  have hkeys : (keys (fields.map (fun p => (p.1, sortKeys p.2)))).Nodup := by
    rw [keys_map sortKeys]
    exact hf
  rw [sortKeys_object, reread, rereadFields_eq]
  refine ⟨_, rfl, fun k => ?_⟩
  rw [Value.get, Value.get, lookup_map reread, lookup_sorted hkeys, lookup_map sortKeys]
  cases fields.lookup k with
  | none => rfl
  | some v => rfl

theorem same_stored {v w : Value} (hv : Regular v) (hw : Regular w) :
    same (reread (sortKeys v)) w = true ↔ content v = content w := by
  obtain ⟨hcontent, hregular⟩ := content_stored v hv
  rw [same_iff _ _ hregular hw, hcontent]

theorem loadsBytes_toUTF8 (s : String) : loadsBytes s.toUTF8.data.toList = (loads s).toOption := by
  have hread : String.fromUTF8? s.toByteArray = some s := dif_pos s.isValidUTF8
  simp [loadsBytes, hread]

/-- A cursor is made of digits and paddings. -/
theorem mem_urlEncode {bytes : List UInt8} {c : Char} (h : c ∈ Base64.urlEncode bytes) : 33 ≤ c.toNat ∧ c.toNat < 127 := by
  obtain ⟨d, hd, rfl⟩ := List.mem_map.mp h
  rcases Base64.mem_encode bytes hd with rfl | ⟨n, hn, rfl⟩
  · decide
  · obtain ⟨-, -, -, hlow, hhigh, -⟩ := Base64.digit_facts hn
    exact ⟨hlow, hhigh⟩

theorem allowed_envelope (token : Bytes) (query : KlineQuery) (resolved : Window) :
    allowed (.object (envelope token query resolved)) = .ok () := by
  have hoptional : ∀ s, allowed (optional s) = .ok () := by
    intro s
    cases s with
    | none => rfl
    | some s => rfl
  have hinteger : allowed (integer query.maxCount) = .ok () := by
    have hshort : ¬ (4300 < (Nat.toDigits 10 query.maxCount.natAbs).length) := Nat.not_lt.mpr query.readable
    exact if_neg (fun h => hshort h.2)
  simp only [envelope, boundFilters, KlineQuery.fields, Value.get, List.lookup_cons, allowed, allowedFields, List.map,
    String.reduceBEq, Option.getD_some, hoptional, hinteger]
  rfl

/-- Every query has a cursor for every token. -/
theorem exists_cursor (token : Bytes) (query : KlineQuery) (resolved : Window) :
    ∃ cursor, encodeCursor token query resolved = .ok cursor := by
  rw [encodeCursor, dumps, allowed_envelope]
  exact ⟨_, rfl⟩

theorem regular_optional (s : Option String) : Regular (optional s) := by
  cases s with
  | none => trivial
  | some s => trivial

theorem regular_filter (query : KlineQuery) : ∀ name ∈ boundFilters, Regular (Value.get query.fields name) := by
  simp only [boundFilters, List.forall_mem_cons]
  exact ⟨trivial, trivial, regular_optional _, regular_optional _, trivial, trivial, nofun⟩

theorem content_optional {s t : Option String} : content (optional s) = content (optional t) ↔ s = t := by
  cases s with
  | none => cases t <;> simp [optional, content]
  | some s => cases t <;> simp [optional, content]

theorem content_integer {n m : ℤ} : content (integer n) = content (integer m) ↔ n = m := by
  have hvalue : ∀ n : ℤ, (⟨n, 0⟩ : Decimal).amount = n := by
    intro n
    have hint : (⟨n, 0⟩ : Decimal).isInt = true := rfl
    rw [Decimal.amount, if_pos hint, Decimal.value_of_int hint]
  simp [integer, content, hvalue]

/-- Queries are the same if they agree on the filters that are bound. -/
theorem query_eq_iff : query = query' ↔
    ∀ name ∈ boundFilters, content (Value.get query.fields name) = content (Value.get query'.fields name) := by
  constructor
  · rintro rfl _ _
    rfl
  · intro h
    simp only [boundFilters, List.forall_mem_cons] at h
    obtain ⟨hcode, hktype, hstart, hend, hcount, hautype, -⟩ := h
    have htext : ∀ {s t : String}, content (.text s) = content (.text t) → s = t := fun h => Reading.text.inj h
    cases query
    cases query'
    simp only [KlineQuery.mk.injEq]
    exact ⟨htext hcode, htext hktype, content_optional.mp hstart, content_optional.mp hend, content_integer.mp hcount,
      htext hautype⟩

/-- The filters of a written query, as they are read, match another query's exactly if it is the same. -/
theorem mismatched_iff {bound : Fields}
    (h : ∀ name ∈ boundFilters, Value.get bound name = reread (sortKeys (Value.get query.fields name))) :
    mismatched bound query' = [] ↔ query = query' := by
  rw [query_eq_iff, mismatched, List.filter_eq_nil_iff]
  refine forall₂_congr (fun name hname => ?_)
  rw [h name hname, ← same_stored (regular_filter query name hname) (regular_filter query' name hname)]
  simp

theorem keys_filters (query : KlineQuery) :
    (keys (boundFilters.map (fun name => (name, Value.get query.fields name)))).Nodup := by
  have hkeys : keys (boundFilters.map (fun name => (name, Value.get query.fields name))) = boundFilters := rfl
  rw [hkeys]
  decide

theorem get_filters {name : String} (h : name ∈ boundFilters) :
    Value.get (boundFilters.map (fun name => (name, Value.get query.fields name))) name = Value.get query.fields name := by
  revert name
  simp only [boundFilters, List.forall_mem_cons]
  exact ⟨rfl, rfl, rfl, rfl, rfl, rfl, nofun⟩

theorem decodeToken_encode (token : Bytes) : decodeToken (String.ofList (Base64.encode token)) = some token := by
  have hascii : isAscii (Base64.encode token) = true := by
    refine List.all_eq_true.mpr (fun c hc => decide_eq_true ?_)
    rcases Base64.mem_encode token hc with rfl | ⟨n, hn, rfl⟩
    · decide
    · obtain ⟨-, -, -, -, -, hlt⟩ := Base64.digit_facts hn
      omega
  rw [decodeToken, String.toList_ofList, if_pos hascii, Base64.decode_encode]

theorem readEnvelope_issued (h : encodeCursor token query resolved = .ok cursor) :
    readEnvelope cursor = some (reread (sortKeys (.object (envelope token query resolved)))) := by
  obtain ⟨payload, hpayload, hcursor⟩ := Checks.bind_ok.mp h
  cases hcursor
  have hascii : isAscii (Base64.urlEncode payload.toUTF8.data.toList) = true := by
    refine List.all_eq_true.mpr (fun c hc => decide_eq_true ?_)
    have hrange := mem_urlEncode hc
    omega
  rw [readEnvelope, String.toList_ofList, if_pos hascii, Base64.urlDecode_urlEncode, Option.bind_some, loadsBytes_toUTF8,
    loads_dumps hpayload]
  rfl

/-- Neither empty nor blank. -/
theorem strip_issued (h : encodeCursor token query resolved = .ok cursor) : Text.strip cursor.toList ≠ [] := by
  intro hnil
  have hread := readEnvelope_issued h
  obtain ⟨payload, -, hcursor⟩ := Checks.bind_ok.mp h
  cases hcursor
  rw [String.toList_ofList, Text.strip_of_solid (fun c hc => ?_)] at hnil
  · rw [hnil] at hread
    cases hread
  · have hrange := mem_urlEncode hc
    simp only [Text.isSpace, List.contains_eq_mem, List.mem_cons, List.not_mem_nil, or_false]
    grind

theorem openEnvelope_issued {bound range : Fields}
    (hbound : ∀ name, Value.get bound name = reread (sortKeys
      (Value.get (boundFilters.map (fun name => (name, Value.get query.fields name))) name)))
    (hstart : Value.get range "start" = .text resolved.start) (hend : Value.get range "end" = .text resolved.end_)
    (query' : KlineQuery) :
    (openEnvelope bound range (String.ofList (Base64.encode token)) query').toOption =
      if query = query' then some (token, resolved) else none := by
  have hmatch : mismatched bound query' = [] ↔ query = query' :=
    mismatched_iff (fun name hname => (hbound name).trans (by rw [get_filters hname]))
  rw [openEnvelope, hstart, hend, decodeToken_encode]
  by_cases hq : query = query'
  · rw [if_pos hq, check, if_pos (decide_eq_true (hmatch.mpr hq))]
    rfl
  · rw [if_neg hq, check, if_neg (fun h => hq (hmatch.mp (of_decide_eq_true h)))]
    rfl

/-- What a cursor that was issued is decoded to, for whatever query it is presented with. -/
theorem decodeCursor_issued (h : encodeCursor token query resolved = .ok cursor) (query' : KlineQuery) :
    (decodeCursor cursor query').toOption =
      if cursor.length ≤ maxCursorChars ∧ query = query' then some (token, resolved) else none := by
  have henvelope : (keys (envelope token query resolved)).Nodup := by
    change ["v", "q", "r", "k"].Nodup
    decide
  have hwindow : (keys [("start", Value.text resolved.start), ("end", Value.text resolved.end_)]).Nodup := by
    change ["start", "end"].Nodup
    decide
  obtain ⟨fields, hfields, hget⟩ := reread_object henvelope
  obtain ⟨bound, hbound, hfilter⟩ := reread_object (keys_filters query)
  obtain ⟨range, hrange, hdate⟩ := reread_object hwindow
  have hread : readEnvelope cursor = some (.object fields) := by rw [readEnvelope_issued h, hfields]
  have hv : same (Value.get fields "v") (integer cursorVersion) = true := by
    rw [hget]
    have hregular : Regular (integer cursorVersion) := trivial
    exact (same_stored hregular hregular).mpr rfl
  have hq : Value.get fields "q" = .object bound := (hget "q").trans hbound
  have hr : Value.get fields "r" = .object range := (hget "r").trans hrange
  have hk : Value.get fields "k" = .text (String.ofList (Base64.encode token)) := hget "k"
  have hstrip : Text.strip cursor.toList ≠ [] := strip_issued h
  rw [decodeCursor, hread]
  dsimp only
  rw [hq, hr, hk, hv, check, if_pos (decide_eq_true hstrip)]
  by_cases hlength : cursor.length ≤ maxCursorChars
  · rw [check, if_pos (decide_eq_true hlength)]
    have hopen : (openEnvelope bound range (String.ofList (Base64.encode token)) query').toOption = _ :=
      openEnvelope_issued hfilter (hdate "start") (hdate "end") query'
    simp only [hlength, true_and]
    exact hopen
  · rw [check, if_neg (fun h => hlength (of_decide_eq_true h)), if_neg (fun h => hlength h.1)]
    rfl

end KlineCursor

namespace MarketData

open Intent Json Calendar KlineCursor Continuation

variable {Row : Type}

/-- A call on the day it is made: its requests, and of its page the rows and the cursor. -/
def askTool (s : Service Row) (today : ℕ → Date) (query : KlineQuery) (i : ℕ) (cursor : Option String) :
    Answer KlineRequest Row String Exc :=
  let (sent, page) := getHistoricalKlinesPage s (today i) query cursor
  (sent, page.map (fun p => (p.data, p.nextCursor)))

/-- Ask for page after page with the unchanged filters and the cursor that came last. -/
def traverse (s : Service Row) (today : ℕ → Date) (query : KlineQuery) (n : ℕ) : Walk KlineRequest Row String Exc :=
  walk (askTool s today query) n 0 none

/-- The request for another page of the same query. -/
def KlineRequest.at (r : KlineRequest) (key : Option Bytes) : KlineRequest := { r with pageReqKey := key }

def askProvider (s : Service Row) (request : KlineRequest) (_ : ℕ) (key : Option Bytes) :
    Answer KlineRequest Row Bytes Exc :=
  ([request.at key], (s.requestHistoryKline (request.at key)).bind klineRows)

/-- The provider's own pages for one query, each asked for with the bytes that came with the last one. -/
def providerChain (s : Service Row) (request : KlineRequest) (n : ℕ) : Walk KlineRequest Row Bytes Exc :=
  walk (askProvider s request) n 0 none

section Pages

variable {s : Service Row} {query : KlineQuery} {resolved : Window} {request : KlineRequest}

theorem klineRequest_key (s : Service Row) (query : KlineQuery) (resolved : Window) (key : Option Bytes) :
    klineRequest s query resolved key = (klineRequest s query resolved none).map (·.at key) := by
  unfold klineRequest
  cases s.connected with
  | false => rfl
  | true =>
      cases validateCandleFilters s query.ktype query.autype with
      | error e => rfl
      | ok names => rfl

theorem klineRequest_ok (h : klineRequest s query resolved none = .ok request) :
    request.start = resolved.start ∧ request.end_ = resolved.end_ ∧ request.at none = request := by
  unfold klineRequest at h
  cases hconnected : s.connected with
  | false =>
      rw [hconnected] at h
      cases h
  | true =>
      rw [hconnected] at h
      obtain ⟨names, -, h⟩ := Checks.bind_ok.mp h
      cases h
      exact ⟨rfl, rfl, rfl⟩

theorem prepare_first {today : Date} (h : prepare s today query none = .ok (resolved, request)) :
    (∃ names, validateCandleFilters s query.ktype query.autype = .ok names) ∧
      resolveDateRange query.start query.end_ today = .ok resolved ∧ klineRequest s query resolved none = .ok request := by
  obtain ⟨names, hnames, h⟩ := Checks.bind_ok.mp h
  obtain ⟨page, hpage, h⟩ := Checks.bind_ok.mp h
  obtain ⟨range, hrange, hrest⟩ := Checks.bind_ok.mp hpage
  cases hrest
  obtain ⟨asked, hasked, hrest⟩ := Checks.bind_ok.mp h
  cases hrest
  exact ⟨⟨names, hnames⟩, hrange, hasked⟩

/-- On any later day, the cursor leads to the same request with the bytes it was made of. -/
theorem prepare_next {first later : Date} {token : Bytes} {cursor : String}
    (h : prepare s first query none = .ok (resolved, request)) (hcursor : encodeCursor token query resolved = .ok cursor)
    (hlength : cursor.length ≤ maxCursorChars) :
    prepare s later query (some cursor) = .ok (resolved, request.at (some token)) := by
  obtain ⟨⟨names, hnames⟩, -, hasked⟩ := prepare_first h
  have hdecode : decodeCursor cursor query = .ok (token, resolved) := by
    have hissued := decodeCursor_issued hcursor query
    rw [if_pos ⟨hlength, rfl⟩] at hissued
    cases hresult : decodeCursor cursor query with
    | error e =>
        rw [hresult] at hissued
        cases hissued
    | ok page =>
        rw [hresult] at hissued
        cases hissued
        rfl
  rw [prepare, hnames, resolveCursor, hdecode]
  change (do return (resolved, ← klineRequest s query resolved (some token))) = _
  rw [klineRequest_key, hasked]
  rfl

theorem klinePage_ok (query : KlineQuery) (resolved : Window) {reply : Reply Row} {rows : List Row} {next : Option Bytes}
    {cursor : Option String} (hrows : klineRows reply = .ok (rows, next))
    (hcursor : nextCursor query resolved next = .ok cursor) :
    klinePage query resolved (.ok reply) = .ok ⟨rows, cursor, cursor.isSome⟩ := by
  rw [klinePage, Checks.ok_bind rfl, Checks.ok_bind hrows]
  dsimp only
  rw [Checks.ok_bind hcursor]
  rfl

theorem nextCursor_some {token : Bytes} {cursor : String} (h : encodeCursor token query resolved = .ok cursor) :
    nextCursor query resolved (some token) = .ok (some cursor) := by
  rw [nextCursor, h]
  rfl

/-- A page of the tool has the rows of the provider's page, and a cursor for its bytes. -/
theorem klinePage_alike (query : KlineQuery) (resolved : Window) (answer : Except Exc (Reply Row)) :
    Alike (fun cursor token => encodeCursor token query resolved = .ok cursor)
      ((klinePage query resolved answer).map (fun p => (p.data, p.nextCursor))) (answer.bind klineRows) := by
  cases answer with
  | error e => exact .failed e
  | ok reply =>
      have hanswer : (Except.ok reply : Except Exc (Reply Row)).bind klineRows = klineRows reply := rfl
      rw [hanswer]
      cases hrows : klineRows reply with
      | error e =>
          rw [klinePage, Checks.ok_bind rfl, hrows]
          exact .failed e
      | ok page =>
          obtain ⟨rows, next⟩ := page
          cases next with
          | none =>
              rw [klinePage_ok query resolved hrows rfl]
              exact .page rows .none
          | some token =>
              obtain ⟨cursor, hcursor⟩ := exists_cursor token query resolved
              rw [klinePage_ok query resolved hrows (nextCursor_some hcursor)]
              exact .page rows (.some hcursor)

end Pages

/-- A traversal sends what the provider's own chain sends, for the window of the first
page, returns its pages and ends as it ends. No cursor continues another query. -/
theorem kline_traversal (s : Service Row) (today : ℕ → Date) (query : KlineQuery) :
    (∀ n resolved request, prepare s (today 0) query none = .ok (resolved, request) →
      (∀ cursor ∈ (traverse s today query n).issued, cursor.length ≤ maxCursorChars) →
        resolveDateRange query.start query.end_ (today 0) = .ok resolved ∧
          request.start = resolved.start ∧ request.end_ = resolved.end_ ∧
          (traverse s today query n).sent = (providerChain s request n).sent ∧
          (traverse s today query n).pages = (providerChain s request n).pages ∧
          (traverse s today query n).ending = (providerChain s request n).ending) ∧
    (∀ token resolved cursor query', encodeCursor token query resolved = .ok cursor → query' ≠ query →
      ∃ e, decodeCursor cursor query' = .error e) := by
  refine ⟨fun n resolved request hfirst hlength => ?_, fun token resolved cursor query' hcursor hne => ?_⟩
  · obtain ⟨-, hwindow, hasked⟩ := prepare_first hfirst
    obtain ⟨hstart, hend, hnone⟩ := klineRequest_ok hasked
    have hbegin : Answered (fun cursor token => encodeCursor token query resolved = .ok cursor)
        (askTool s today query 0 none) (askProvider s request 0 none) := by
      rw [askTool, getHistoricalKlinesPage, hfirst, askProvider, hnone]
      exact ⟨rfl, klinePage_alike query resolved _⟩
    have hnext : ∀ i cursor token, encodeCursor token query resolved = .ok cursor → cursor.length ≤ maxCursorChars →
        Answered (fun cursor token => encodeCursor token query resolved = .ok cursor)
          (askTool s today query i (some cursor)) (askProvider s request i (some token)) := by
      intro i cursor token hcursor hfine
      rw [askTool, getHistoricalKlinesPage, prepare_next hfirst hcursor hfine]
      exact ⟨rfl, klinePage_alike query resolved _⟩
    obtain ⟨hsent, hpages, hending, -⟩ := walk_alike hnext n 0 none none hbegin hlength
    exact ⟨hwindow, hstart, hend, hsent, hpages, hending⟩
  · have hissued := decodeCursor_issued hcursor query'
    rw [if_neg (fun h => hne h.2.symm)] at hissued
    cases hresult : decodeCursor cursor query' with
    | error e => exact ⟨e, rfl⟩
    | ok page =>
        rw [hresult] at hissued
        cases hissued

/-- Two pages, the second of which is asked for with two bytes. -/
def twoPages (r : KlineRequest) : Except Exc (Reply ℕ) :=
  match r.pageReqKey with
  | none => .ok (.received (.frame [1, 2]) (some [7, 255]))
  | some _ => .ok (.received (.frame [3]) none)

def quotes : Service ℕ := ⟨true, ["K_DAY"], ["QFQ"], id, String.map Char.toLower, twoPages⟩

def daily : KlineQuery := ⟨"US.AAPL", "k_day", none, none, 2, "QFQ", by decide⟩

/-- The days before and after a midnight. -/
def acrossMidnight : ℕ → Date
  | 0 => ⟨2024, 2, 29, by decide⟩
  | _ + 1 => ⟨2024, 3, 1, by decide⟩

def dailyWindow : Window := ⟨"2023-03-01", "2024-02-29"⟩

def dailyRequest : KlineRequest := ⟨"US.AAPL", "2023-03-01", "2024-02-29", "K_DAY", "qfq", 2, none⟩

theorem kline_traversal_midnight :
    (traverse quotes acrossMidnight daily 2).sent = [dailyRequest, dailyRequest.at (some [7, 255])] ∧
      (traverse quotes acrossMidnight daily 2).pages = [[1, 2], [3]] ∧
      (traverse quotes acrossMidnight daily 2).ending = .exhausted ∧
      ∀ cursor, encodeCursor [7, 255] daily dailyWindow = .ok cursor →
        ∃ e, decodeCursor cursor { daily with maxCount := 3, readable := by decide } = .error e := by
  have hfirst : prepare quotes (acrossMidnight 0) daily none = .ok (dailyWindow, dailyRequest) := by decide +kernel
  obtain ⟨cursor, hcursor⟩ := exists_cursor [7, 255] daily dailyWindow
  have hlength : cursor.length ≤ maxCursorChars := by
    obtain ⟨payload, hpayload, hrest⟩ := Checks.bind_ok.mp hcursor
    have hshort : (dumps (.object (envelope [7, 255] daily dailyWindow))).toOption.all (fun payload =>
        (Base64.urlEncode payload.toUTF8.data.toList).length ≤ maxCursorChars) = true := by
      decide +kernel
    rw [hpayload] at hshort
    cases hrest
    rw [String.length_ofList]
    exact of_decide_eq_true hshort
  have hissued : (traverse quotes acrossMidnight daily 2).issued = [cursor] := by
    have hnext : prepare quotes (acrossMidnight 1) daily (some cursor) = .ok (dailyWindow, dailyRequest.at (some [7, 255])) :=
      prepare_next hfirst hcursor hlength
    have hpage : klinePage daily dailyWindow (quotes.requestHistoryKline dailyRequest) = .ok ⟨[1, 2], some cursor, true⟩ :=
      klinePage_ok daily dailyWindow rfl (nextCursor_some hcursor)
    have hzero : askTool quotes acrossMidnight daily 0 none = ([dailyRequest], .ok ([1, 2], some cursor)) := by
      rw [askTool, getHistoricalKlinesPage, hfirst]
      dsimp only
      rw [hpage]
      rfl
    have hone : askTool quotes acrossMidnight daily 1 (some cursor) =
        ([dailyRequest.at (some [7, 255])], .ok ([3], none)) := by
      rw [askTool, getHistoricalKlinesPage, hnext]
      rfl
    rw [traverse, walk, hzero]
    change cursor :: (walk (askTool quotes acrossMidnight daily) 1 1 (some cursor)).issued = [cursor]
    rw [walk, hone]
  obtain ⟨hwalk, hrejects⟩ := kline_traversal quotes acrossMidnight daily
  obtain ⟨-, -, -, hsent, hpages, hending⟩ := hwalk 2 dailyWindow dailyRequest hfirst (by
    rw [hissued]
    exact List.forall_mem_singleton.mpr hlength)
  refine ⟨hsent.trans rfl, hpages.trans rfl, hending.trans rfl, fun cursor hcursor => hrejects _ _ cursor _ hcursor ?_⟩
  decide

end MarketData

end MoomooMcp
