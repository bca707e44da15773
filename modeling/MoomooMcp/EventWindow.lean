import MoomooMcp.EventReaders

namespace MoomooMcp.EventReaders

open Intent TradeEvents WindowedLog

variable {b : Buffer} {log : List Event} {dropped : ℕ}

/-- A buffer keeps a suffix of what its process accepted, numbered from one. -/
structure Holds (b : Buffer) (log : List Event) (dropped : ℕ) : Prop where
  events : b.events.map (·.2) = log.drop dropped
  le : dropped ≤ log.length
  sequence : b.sequence = log.length
  numbered : Numbered Event.sequence log

theorem Holds.initial (epoch : Epoch) (bounds : Bounds) : Holds ⟨epoch, bounds, [], 0, true, 0⟩ [] 0 :=
  ⟨rfl, le_refl 0, rfl, fun i x h => by simp at h⟩

/-- What a buffer keeps after forgetting its oldest members. -/
theorem Holds.suffix {es : List (ℚ × Event)} (h : Holds b log dropped) (hs : es <:+ b.events) :
    ∃ dropped', dropped ≤ dropped' ∧ Holds { b with events := es } log dropped' := by
  obtain ⟨front, hfront⟩ := hs
  have hes : es = b.events.drop front.length := by rw [← hfront, List.drop_left]
  have hlen : es.length ≤ (log.drop dropped).length := by
    rw [← h.events, List.length_map, ← hfront, List.length_append]
    omega
  refine ⟨min (dropped + front.length) log.length, ?_, ?_, min_le_right _ _, h.sequence, h.numbered⟩
  · exact le_min (by omega) h.le
  · show es.map (·.2) = _
    rw [hes, List.map_drop, h.events, List.drop_drop]
    by_cases hle : dropped + front.length ≤ log.length
    · rw [min_eq_left hle]
    · rw [min_eq_right (by omega), List.drop_eq_nil_of_le (by omega), List.drop_eq_nil_of_le (le_refl _)]

theorem Holds.expire (h : Holds b log dropped) (now : ℚ) :
    ∃ dropped', dropped ≤ dropped' ∧ Holds (b.expire now) log dropped' :=
  h.suffix (List.dropWhile_suffix _)

theorem Holds.close (h : Holds b log dropped) : ∃ dropped', dropped ≤ dropped' ∧ Holds b.close log dropped' := by
  obtain ⟨dropped', hle, hh⟩ := h.suffix (List.nil_suffix)
  exact ⟨dropped', hle, hh.events, hh.le, hh.sequence, hh.numbered⟩

/-- One more accepted event is kept, and at most the oldest is forgotten for it. -/
theorem Holds.push (h : Holds b log dropped) (now : ℚ) {e : Event} (he : e.sequence = log.length + 1) :
    ∃ dropped', dropped ≤ dropped' ∧
      Holds ({ b with sequence := b.sequence + 1 }.push now e) (log ++ [e]) dropped' ∧
      ({ b with sequence := b.sequence + 1 }.push now e).events.getLast? = some (now, e) := by
  have hlong : Holds { b with sequence := b.sequence + 1, events := b.events ++ [(now, e)] } (log ++ [e]) dropped := by
    refine ⟨?_, by simp; have := h.le; omega, by simp [h.sequence], h.numbered.append he⟩
    rw [List.map_append, h.events, List.drop_append_of_le_length h.le]
    rfl
  obtain ⟨dropped', hle, hh⟩ := hlong.suffix
    (List.drop_suffix (b.events.length + 1 - b.bounds.maxEvents) (b.events ++ [(now, e)]))
  refine ⟨dropped', hle, hh, ?_⟩
  have hpos := b.bounds.maxEvents_pos
  show ((b.events ++ [(now, e)]).drop (b.events.length + 1 - b.bounds.maxEvents)).getLast? = some (now, e)
  rw [List.drop_append_of_le_length (by omega), List.getLast?_append]
  rfl

theorem gained_push {b' : Buffer} {now : ℚ} {e : Event} (hseq : b.sequence < b'.sequence)
    (hlast : b'.events.getLast? = some (now, e)) : gained b b' = [e].map (fun e => (b'.epoch, e)) := by
  rw [gained, if_pos hseq, hlast]
  rfl

/-- A row either changes nothing or is the next event of the log. -/
theorem Holds.append (h : Holds b log dropped) (now : ℚ) (observedAt kind : String) (account : Value) (row : Fields) :
    ∃ new dropped', dropped ≤ dropped' ∧ Holds (b.append now observedAt kind account row) (log ++ new) dropped' ∧
      (b.append now observedAt kind account row).epoch = b.epoch ∧
      gained b (b.append now observedAt kind account row) = new.map (fun e => (b.epoch, e)) := by
  have hsame : ∃ new dropped', dropped ≤ dropped' ∧ Holds b (log ++ new) dropped' ∧ b.epoch = b.epoch ∧
      gained b b = new.map (fun e => (b.epoch, e)) :=
    ⟨[], dropped, le_refl _, by rw [List.append_nil]; exact h, rfl, by simp [gained]⟩
  unfold Buffer.append
  split
  · next accountId environment data _ _ =>
      split
      · exact hsame
      · obtain ⟨d₁, hle₁, h₁⟩ := h.expire now
        have hseq : (b.expire now).sequence = b.sequence := rfl
        obtain ⟨d₂, hle₂, h₂, hlast⟩ := h₁.push now
          (e := ⟨b.sequence + 1, kind, observedAt, accountId, environment, data⟩) (by rw [h.sequence])
        refine ⟨_, d₂, hle₁.trans hle₂, h₂, rfl, ?_⟩
        exact gained_push (Nat.lt_succ_self _) hlast
  · exact hsame

theorem Holds.oldest (h : Holds b log dropped) : b.oldest = dropped + 1 := by
  have hevents := h.events
  unfold Buffer.oldest
  cases he : b.events with
  | nil =>
      rw [he, List.map_nil] at hevents
      have hlen := List.drop_eq_nil_iff.mp hevents.symm
      have hle := h.le
      show b.sequence + 1 = dropped + 1
      rw [h.sequence]
      omega
  | cons x es =>
      rw [he, List.map_cons] at hevents
      have hx : log[dropped]? = some x.2 := by
        rw [← List.head?_drop, ← hevents]
        rfl
      exact h.numbered dropped x.2 hx

theorem Holds.selected (h : Holds b log dropped) {account : Value} {accountId environment : String}
    (ha : exactIdentifier account = .ok accountId) (after : ℕ) :
    b.selected after environment accountId = (log.drop (max dropped after)).filter (scope environment account) := by
  have hscope : scope environment account = fun e => e.trdEnv = environment && e.accId = accountId := by
    funext e
    rw [scope, ha]
  rw [Buffer.selected, h.events, ← h.numbered.filter_after, List.filter_filter, hscope]
  congr 1
  funext e
  exact Bool.and_comm _ _

/-- What a page is: the events of the scope in one stretch of the log, which
begins where the reader was or at the oldest retained event. -/
structure Stretch (p : Page) (log : List Event) (dropped after : ℕ) (scope : Event → Bool) : Prop where
  next_le : p.nextSequence ≤ log.length
  le_next : max dropped after ≤ p.nextSequence
  events : p.events = ((log.take p.nextSequence).drop (max dropped after)).filter scope
  complete : p.hasMore = false → p.nextSequence = log.length
  progress : p.hasMore = true → p.events ≠ []
  gap : p.retentionGap = decide (after < dropped)

theorem Holds.page (h : Holds b log dropped) {account : Value} {accountId environment : String}
    (ha : exactIdentifier account = .ok accountId) {after limit : ℕ} (hafter : after ≤ log.length) (hlimit : 0 < limit)
    (restarted : Bool) :
    Stretch (b.page environment accountId after restarted limit) log dropped after (scope environment account) := by
  have hsel : b.selected after environment accountId = _ := h.selected ha after
  have hmax : max dropped after ≤ log.length := max_le h.le hafter
  have hgap : decide (after < b.oldest - 1) = decide (after < dropped) := by rw [h.oldest, Nat.add_sub_cancel]
  by_cases hmore : limit < (b.selected after environment accountId).length
  · have hlen : limit ≤ ((log.drop (max dropped after)).filter (scope environment account)).length := by
      rw [← hsel]
      exact hmore.le
    obtain ⟨j, x, hj, hx, htake, hlast⟩ := take_filter hlimit hlen
    rw [List.length_drop] at hj
    rw [List.getElem?_drop] at hx
    have hseq := h.numbered _ x hx
    have hnext : (b.page environment accountId after restarted limit).nextSequence = max dropped after + j + 1 := by
      show nextSequence b _ limit = _
      rw [nextSequence, if_pos hmore, hsel, hlast, Option.elim_some, hseq]
    refine ⟨by rw [hnext]; omega, by rw [hnext]; omega, ?_, ?_, ?_, hgap⟩
    · rw [hnext, List.drop_take, show max dropped after + j + 1 - max dropped after = j + 1 by omega, ← htake, ← hsel]
      rfl
    · intro hf
      exact absurd hmore (of_decide_eq_false hf)
    · intro _ hnil
      have hempty : ((log.drop (max dropped after)).filter (scope environment account)).take limit = [] := by
        rw [← hsel]
        exact hnil
      rw [hempty] at hlast
      cases hlast
  · have hnext : (b.page environment accountId after restarted limit).nextSequence = log.length := by
      show nextSequence b _ limit = _
      rw [nextSequence, if_neg hmore, h.sequence]
    refine ⟨hnext.le, by rw [hnext]; exact hmax, ?_, fun _ => hnext, ?_, hgap⟩
    · rw [hnext, List.take_length, ← hsel]
      exact List.take_of_length_le (not_lt.mp hmore)
    · intro ht
      exact absurd (of_decide_eq_true ht) hmore

/-- A read forgets what has expired, and answers with one stretch of the log. -/
theorem Holds.read (h : Holds b log dropped) (now : ℚ) (environment : String) (account : Value) (cursor : Cursor)
    (limit : ℤ) :
    ∃ dropped', dropped ≤ dropped' ∧ Holds (b.read now environment account cursor limit).2 log dropped' ∧
      (b.read now environment account cursor limit).2.epoch = b.epoch ∧
      ∀ p, (b.read now environment account cursor limit).1 = .ok p →
        ∃ after, after = (if cursor.eventEpoch.any (fun epoch => epoch ≠ b.epoch) then 0 else cursor.afterSequence.toNat) ∧
          p.eventEpoch = b.epoch ∧ p.restartGap = cursor.eventEpoch.any (fun epoch => epoch ≠ b.epoch) ∧
          Stretch p log dropped' after (scope environment account) := by
  have hsame : ∀ e : Exc, ∃ dropped', dropped ≤ dropped' ∧ Holds b log dropped' ∧ b.epoch = b.epoch ∧
      ∀ p, (.error e : Except Exc Page) = .ok p →
        ∃ after, after = (if cursor.eventEpoch.any (fun epoch => epoch ≠ b.epoch) then 0 else cursor.afterSequence.toNat) ∧
          p.eventEpoch = b.epoch ∧ p.restartGap = cursor.eventEpoch.any (fun epoch => epoch ≠ b.epoch) ∧
          Stretch p log dropped' after (scope environment account) :=
    fun e => ⟨dropped, le_refl _, h, rfl, fun p hp => by cases hp⟩
  obtain ⟨d, hle, hd⟩ := h.expire now
  unfold Buffer.read
  split
  · exact hsame _
  · next accountId ha =>
      split
      · exact hsame _
      · split
        · exact hsame _
        · split
          · exact hsame _
          · next hlimit =>
              split
              · exact hsame _
              · dsimp only
                generalize cursor.eventEpoch.any (fun epoch => decide (epoch ≠ b.epoch)) = restarted
                by_cases hbound : (b.expire now).sequence < (if restarted = true then 0 else cursor.afterSequence.toNat)
                · rw [if_pos hbound]
                  exact ⟨d, hle, hd, rfl, fun p hp => by cases hp⟩
                · rw [if_neg hbound]
                  refine ⟨d, hle, hd, rfl, fun p hp => ?_⟩
                  cases hp
                  rw [hd.sequence] at hbound
                  exact ⟨_, rfl, rfl, rfl, hd.page ha (by omega) (by omega) _⟩

end MoomooMcp.EventReaders
