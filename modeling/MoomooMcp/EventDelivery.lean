import MoomooMcp.EventWindow

namespace MoomooMcp.EventReaders

open Intent TradeEvents WindowedLog Machine

def tagged (epoch : Epoch) (es : List Event) : List Accepted := es.map (fun e => (epoch, e))

theorem mem_tagged {epoch : Epoch} {es : List Event} {a : Accepted} :
    a ∈ tagged epoch es ↔ a.1 = epoch ∧ a.2 ∈ es := by
  rw [tagged, List.mem_map]
  constructor
  · rintro ⟨e, he, rfl⟩
    exact ⟨rfl, he⟩
  · rintro ⟨rfl, he⟩
    exact ⟨a.2, he, rfl⟩

theorem tagged_append (epoch : Epoch) (es es' : List Event) :
    tagged epoch (es ++ es') = tagged epoch es ++ tagged epoch es' := List.map_append

theorem filter_tagged (epoch : Epoch) (es : List Event) (p : Event → Bool) :
    (tagged epoch es).filter (fun a => p a.2) = tagged epoch (es.filter p) := by
  rw [tagged, List.filter_map]
  rfl

/-- The consumer after one more successful read. -/
def Consumer.add (c : Consumer) (r : Reading) : Consumer := { c with readings := c.readings ++ [r] }

variable {c : Consumer} {r : Reading} {a : Accepted}

theorem Consumer.received_add (c : Consumer) (r : Reading) : (c.add r).received = c.received ++ r.received := by
  show (c.readings ++ [r]).flatMap Reading.received = _
  rw [List.flatMap_append, List.flatMap_singleton]
  rfl

theorem Consumer.settled_add (h : c.settled a) (r : Reading) : (c.add r).settled a := by
  cases h with
  | inl hr =>
      left
      rw [c.received_add]
      exact List.mem_append_left _ hr
  | inr hr =>
      obtain ⟨r', hr', hlost, hgap⟩ := hr
      exact .inr ⟨r', List.mem_append_left _ hr', hlost, hgap⟩

theorem Consumer.settled_received (h : a ∈ r.received) : (c.add r).settled a := by
  left
  rw [c.received_add]
  exact List.mem_append_right _ h

theorem Consumer.settled_reported (hlost : r.lost a) (hgap : r.gap) : (c.add r).settled a :=
  .inr ⟨r, List.mem_append_right _ List.mem_cons_self, hlost, hgap⟩

theorem Consumer.attends_add (hc : c.readings ≠ []) (h : (c.add r).attends a) : c.attends a := by
  intro r' hr'
  refine h r' ?_
  show r' ∈ (c.readings ++ [r]).head?
  rw [List.head?_append_of_ne_nil _ hc]
  exact hr'

theorem Consumer.attends_first (hc : c.readings = []) (h : (c.add r).attends a) (ha : a ∈ r.accepted) :
    a.1 = r.page.eventEpoch := by
  refine h r ?_ ha
  show r ∈ (c.readings ++ [r]).head?
  rw [hc]
  rfl

/-- Where in the events of one process the consumer's next read begins. -/
def Consumer.position (c : Consumer) (epoch : Epoch) : ℕ :=
  if c.cursor.eventEpoch.any (fun e => e ≠ epoch) then 0 else c.cursor.afterSequence.toNat

/-- The next read of the consumer is its first one in this process. -/
def Consumer.newcomer (c : Consumer) (epoch : Epoch) : Prop := ∀ r ∈ c.readings.getLast?, r.page.eventEpoch ≠ epoch

theorem Consumer.cursor_add (c : Consumer) (r : Reading) :
    (c.add r).cursor = ⟨some r.page.eventEpoch, r.page.nextSequence⟩ := by
  have hlast : (c.add r).readings.getLast? = some r := List.getLast?_concat
  rw [Consumer.cursor, hlast]

theorem Consumer.position_add (c : Consumer) (r : Reading) :
    (c.add r).position r.page.eventEpoch = r.page.nextSequence := by
  rw [Consumer.position, c.cursor_add, Option.any_some, if_neg (by simp)]
  rfl

theorem Consumer.position_newcomer {epoch : Epoch} (h : c.newcomer epoch) : c.position epoch = 0 := by
  rw [Consumer.position, Consumer.cursor]
  cases hr : c.readings.getLast? with
  | none => rfl
  | some r => exact if_pos (by simpa using h r hr)

/-- Only a first read of all reports no restart when it is the first in its process. -/
theorem Consumer.restarted {epoch : Epoch} (h : c.newcomer epoch) (hc : c.readings ≠ []) :
    c.cursor.eventEpoch.any (fun e => e ≠ epoch) = true := by
  rw [Consumer.cursor]
  cases hr : c.readings.getLast? with
  | none => exact absurd (List.getLast?_eq_none_iff.mp hr) hc
  | some r => simpa using h r hr

/-- The consumer is accountable for every event of its scope that it attends,
where a read is to answer for it. -/
structure Answers (c : Consumer) (r : Reading) : Prop where
  lost : ∀ a, c.inScope a → c.attends a → r.lost a → c.settled a
  complete : r.page.hasMore = false → ∀ a ∈ r.accepted, c.inScope a → c.attends a → c.settled a
  progress : r.page.hasMore = true → r.page.events ≠ []

theorem Answers.add {r' : Reading} (h : Answers c r) (hc : c.readings ≠ []) : Answers (c.add r') r where
  lost a hs ha hl := Consumer.settled_add (h.lost a hs (Consumer.attends_add hc ha) hl) r'
  complete hm a ha hs hat := Consumer.settled_add (h.complete hm a ha hs (Consumer.attends_add hc hat)) r'
  progress := h.progress

/-- What links a consumer to the events accepted so far: those of processes that
ended, and the log of the process that runs. -/
structure Follows (s : Sys) (past : List Accepted) (log : List Event) (dropped : ℕ) : Prop where
  holds : Holds s.buffer log dropped
  accepted : s.accepted = past ++ tagged s.buffer.epoch log
  running : s.buffer.epoch ∈ s.epochs
  ended : ∀ a ∈ past, a.1 ∈ s.epochs ∧ a.1 ≠ s.buffer.epoch
  distinct : past.Nodup
  readings : ∀ r ∈ s.consumer.readings, r.page.eventEpoch ∈ s.epochs ∧ Answers s.consumer r
  position : s.consumer.position s.buffer.epoch ≤ log.length
  received : s.consumer.received.Sublist
    ((past ++ tagged s.buffer.epoch (log.take (s.consumer.position s.buffer.epoch))).filter s.consumer.inScope)
  settled : ∀ a ∈ past ++ tagged s.buffer.epoch (log.take (s.consumer.position s.buffer.epoch)),
    s.consumer.inScope a → s.consumer.attends a →
      s.consumer.settled a ∨ a ∈ past ∧ s.consumer.newcomer s.buffer.epoch

def Followed (s : Sys) : Prop := ∃ past log dropped, Follows s past log dropped

theorem followed_initial (epoch : Epoch) (bounds : Bounds) (environment : String) (account : Value) :
    Followed (initial epoch bounds environment account) := by
  refine ⟨[], [], 0, Holds.initial epoch bounds, rfl, List.mem_cons_self, ?_, List.nodup_nil, ?_, le_refl 0, ?_, ?_⟩
  · intro a ha
    cases ha
  · intro r hr
    cases hr
  · exact List.nil_sublist _
  · intro a ha
    cases ha

variable {s : Sys} {past : List Accepted} {log : List Event} {dropped : ℕ}

/-- The buffer may forget events, or pass on to more of them. -/
theorem Follows.frame (h : Follows s past log dropped) {b : Buffer} {new : List Event} {dropped' : ℕ}
    (hb : Holds b (log ++ new) dropped') (hepoch : b.epoch = s.buffer.epoch) :
    Follows { s with buffer := b, accepted := s.accepted ++ tagged s.buffer.epoch new } past (log ++ new) dropped' := by
  obtain ⟨buffer, epochs, accepted, consumer⟩ := s
  dsimp only at hepoch ⊢
  have htake : (log ++ new).take (consumer.position b.epoch) = log.take (consumer.position b.epoch) :=
    List.take_append_of_le_length (by rw [hepoch]; exact h.position)
  constructor
  · exact hb
  · show accepted ++ tagged buffer.epoch new = _
    rw [show accepted = _ from h.accepted, List.append_assoc, ← tagged_append, ← hepoch]
  · exact hepoch ▸ h.running
  · exact hepoch ▸ h.ended
  · exact h.distinct
  · exact h.readings
  · rw [List.length_append]
    exact (hepoch ▸ h.position).trans (Nat.le_add_right _ _)
  · dsimp only
    rw [htake, hepoch]
    exact h.received
  · dsimp only
    rw [htake, hepoch]
    exact h.settled

theorem Follows.forget (h : Follows s past log dropped) {b : Buffer} {dropped' : ℕ} (hb : Holds b log dropped')
    (hepoch : b.epoch = s.buffer.epoch) : Follows { s with buffer := b } past log dropped' := by
  have hf := h.frame (by rw [List.append_nil]; exact hb : Holds b (log ++ []) dropped') hepoch
  rw [List.append_nil] at hf
  simpa [tagged] using hf

/-- After a restart the whole log is past, and the consumer is new to the process. -/
theorem Follows.restart (h : Follows s past log dropped) {epoch : Epoch} (hfresh : epoch ∉ s.epochs) (bounds : Bounds) :
    Follows { s with buffer := ⟨epoch, bounds, [], 0, true, 0⟩, epochs := s.epochs ++ [epoch] }
      (past ++ tagged s.buffer.epoch log) [] 0 := by
  obtain ⟨buffer, epochs, accepted, consumer⟩ := s
  dsimp only at hfresh ⊢
  have hnew : consumer.newcomer epoch := by
    intro r hr he
    exact hfresh (he ▸ (h.readings r (List.mem_of_mem_getLast? hr)).1)
  have hpos : consumer.position epoch = 0 := Consumer.position_newcomer hnew
  constructor
  · exact Holds.initial epoch bounds
  · show accepted = _
    rw [show accepted = _ from h.accepted]
    exact (List.append_nil _).symm
  · exact List.mem_append_right _ List.mem_cons_self
  · intro a ha
    have hmem : a.1 ∈ epochs := by
      cases List.mem_append.mp ha with
      | inl hp => exact (h.ended a hp).1
      | inr hl => exact (mem_tagged.mp hl).1 ▸ h.running
    refine ⟨List.mem_append_left _ hmem, fun he => ?_⟩
    have hepoch : a.1 = epoch := he
    exact hfresh (hepoch ▸ hmem)
  · refine List.nodup_append.mpr ⟨h.distinct, ?_, ?_⟩
    · exact (h.holds.numbered.nodup).map (fun _ _ he => (Prod.mk.inj he).2)
    · intro a ha b hb he
      exact (h.ended a ha).2 (he ▸ (mem_tagged.mp hb).1)
  · exact fun r hr => ⟨List.mem_append_left _ (h.readings r hr).1, (h.readings r hr).2⟩
  · show consumer.position epoch ≤ 0
    exact hpos.le
  · refine h.received.trans (List.Sublist.filter _ ?_)
    dsimp only
    rw [List.take_nil]
    refine List.Sublist.trans ?_ (List.sublist_append_left _ _)
    exact (List.Sublist.refl past).append ((List.take_sublist _ _).map _)
  · intro a ha _ _
    dsimp only at ha
    rw [List.take_nil, show tagged epoch [] = [] from rfl, List.append_nil] at ha
    exact .inr ⟨ha, hnew⟩

/-- A successful read, once what it forgot is accounted for: the buffer after it,
and the page it answers with. -/
structure Polled (s : Sys) (b : Buffer) (page : Page) (log : List Event) (dropped : ℕ) : Prop where
  holds : Holds b log dropped
  epoch : b.epoch = s.buffer.epoch
  eventEpoch : page.eventEpoch = s.buffer.epoch
  restartGap : page.restartGap = s.consumer.cursor.eventEpoch.any (fun e => e ≠ s.buffer.epoch)
  stretch : Stretch page log dropped (s.consumer.position s.buffer.epoch) (scope s.consumer.environment s.consumer.account)

def reading (s : Sys) (b : Buffer) (page : Page) : Reading := ⟨page, s.accepted, retained b⟩

variable {b : Buffer} {page : Page} {dropped' : ℕ}

theorem Polled.retained (hp : Polled s b page log dropped') :
    retained b = tagged s.buffer.epoch (log.drop dropped') := by
  rw [← hp.holds.events, tagged, List.map_map, ← hp.epoch]
  rfl

theorem Polled.dropped_lost (h : Follows s past log dropped) (hp : Polled s b page log dropped') {e : Event}
    (he : e ∈ log) (hs : e.sequence ≤ dropped') : (reading s b page).lost (s.buffer.epoch, e) := by
  refine ⟨?_, ?_⟩
  · show _ ∈ s.accepted
    rw [h.accepted]
    exact List.mem_append_right _ (mem_tagged.mpr ⟨rfl, he⟩)
  · show _ ∉ EventReaders.retained b
    rw [hp.retained]
    intro hmem
    have hlt : dropped' < e.sequence := (hp.holds.numbered.mem_drop.mp (mem_tagged.mp hmem).2).2
    omega

theorem Polled.ended_lost (h : Follows s past log dropped) (hp : Polled s b page log dropped') (ha : a ∈ past) :
    (reading s b page).lost a := by
  refine ⟨?_, ?_⟩
  · show _ ∈ s.accepted
    rw [h.accepted]
    exact List.mem_append_left _ ha
  · show _ ∉ EventReaders.retained b
    rw [hp.retained]
    exact fun hmem => (h.ended a ha).2 (mem_tagged.mp hmem).1

theorem Polled.received (hp : Polled s b page log dropped') :
    (reading s b page).received = (tagged s.buffer.epoch ((log.take page.nextSequence).drop
      (max dropped' (s.consumer.position s.buffer.epoch)))).filter s.consumer.inScope := by
  show page.events.map (fun e => (page.eventEpoch, e)) = _
  rw [hp.stretch.events, hp.eventEpoch]
  exact (filter_tagged s.buffer.epoch _ (scope s.consumer.environment s.consumer.account)).symm

/-- Up to where the next read begins, every event of the scope is settled by now:
the earlier reads settled it, or this one reports a gap, or this one returns it. -/
theorem Polled.settled (h : Follows s past log dropped) (hp : Polled s b page log dropped')
    (ha : a ∈ past ++ tagged s.buffer.epoch (log.take page.nextSequence)) (hs : s.consumer.inScope a)
    (hat : (s.consumer.add (reading s b page)).attends a) : (s.consumer.add (reading s b page)).settled a := by
  have hbefore : a ∈ past ++ tagged s.buffer.epoch (log.take (s.consumer.position s.buffer.epoch)) →
      (s.consumer.add (reading s b page)).settled a := by
    intro hmem
    by_cases hc : s.consumer.readings = []
    · have hepoch : a.1 = s.buffer.epoch := by
        rw [← hp.eventEpoch]
        refine Consumer.attends_first hc hat ?_
        show a ∈ s.accepted
        rw [h.accepted]
        exact List.mem_append.mpr ((List.mem_append.mp hmem).imp id
          (fun hl => mem_tagged.mpr ((mem_tagged.mp hl).imp id List.mem_of_mem_take)))
      have hnew : s.consumer.newcomer s.buffer.epoch := by
        intro r hr
        rw [hc] at hr
        cases hr
      rw [Consumer.position_newcomer hnew, List.take_zero, show tagged s.buffer.epoch [] = [] from rfl,
        List.append_nil] at hmem
      exact absurd hepoch (h.ended a hmem).2
    · cases h.settled a hmem hs (Consumer.attends_add hc hat) with
      | inl hold => exact Consumer.settled_add hold _
      | inr hrest =>
          have hgap : page.restartGap = true := by rw [hp.restartGap, Consumer.restarted hrest.2 hc]
          exact Consumer.settled_reported (Polled.ended_lost h hp hrest.1) (.inr hgap)
  cases List.mem_append.mp ha with
  | inl hpast => exact hbefore (List.mem_append_left _ hpast)
  | inr hlog =>
      obtain ⟨hepoch, hmem⟩ := mem_tagged.mp hlog
      have hnum := hp.holds.numbered
      obtain ⟨hin, hle⟩ := hnum.mem_take.mp hmem
      obtain ⟨epoch, e⟩ := a
      cases hepoch
      by_cases hpos : e.sequence ≤ s.consumer.position s.buffer.epoch
      · exact hbefore (List.mem_append_right _ (mem_tagged.mpr ⟨rfl, hnum.mem_take.mpr ⟨hin, hpos⟩⟩))
      · by_cases hdrop : e.sequence ≤ dropped'
        · have hgap : page.retentionGap = true := by
            rw [hp.stretch.gap]
            exact decide_eq_true (by omega)
          exact Consumer.settled_reported (Polled.dropped_lost h hp hin hdrop) (.inl hgap)
        · refine Consumer.settled_received ?_
          rw [hp.received]
          refine List.mem_filter.mpr ⟨mem_tagged.mpr ⟨rfl, ?_⟩, hs⟩
          rw [List.drop_take]
          obtain ⟨k, hk⟩ := List.mem_iff_getElem?.mp (hnum.mem_drop.mpr ⟨hin, max_lt (not_le.mp hdrop) (not_le.mp hpos)⟩)
          refine List.mem_iff_getElem?.mpr ⟨k, ?_⟩
          have hseq : e.sequence = max dropped' (s.consumer.position s.buffer.epoch) + k + 1 :=
            hnum _ e (List.getElem?_drop.symm.trans hk)
          have hlt : k < page.nextSequence - max dropped' (s.consumer.position s.buffer.epoch) := by
            have hle' : e.sequence ≤ page.nextSequence := hle
            omega
          rw [List.getElem?_take, if_pos hlt]
          exact hk

theorem Follows.poll (h : Follows s past log dropped) (hp : Polled s b page log dropped') :
    Follows { s with buffer := b, consumer := s.consumer.add (reading s b page) } past log dropped' := by
  have hset : ∀ a ∈ past ++ tagged s.buffer.epoch (log.take page.nextSequence), s.consumer.inScope a →
      (s.consumer.add (reading s b page)).attends a → (s.consumer.add (reading s b page)).settled a :=
    fun a ha hs hat => Polled.settled h hp ha hs hat
  have hposition : (s.consumer.add (reading s b page)).position b.epoch = page.nextSequence := by
    rw [hp.epoch, ← hp.eventEpoch]
    exact s.consumer.position_add (reading s b page)
  have hanswers : Answers (s.consumer.add (reading s b page)) (reading s b page) := by
    refine ⟨?_, ?_, hp.stretch.progress⟩
    · intro a hs hat hlost
      refine hset a ?_ hs hat
      have hacc : a ∈ past ++ tagged s.buffer.epoch log := h.accepted ▸ hlost.1
      refine List.mem_append.mpr ((List.mem_append.mp hacc).imp id (fun hl => ?_))
      obtain ⟨hepoch, hmem⟩ := mem_tagged.mp hl
      refine mem_tagged.mpr ⟨hepoch, hp.holds.numbered.mem_take.mpr ⟨hmem, ?_⟩⟩
      by_contra hlate
      refine hlost.2 ?_
      show a ∈ EventReaders.retained b
      rw [hp.retained]
      have hle := (le_max_left dropped' _).trans hp.stretch.le_next
      exact mem_tagged.mpr ⟨hepoch, hp.holds.numbered.mem_drop.mpr ⟨hmem, by omega⟩⟩
    · intro hm a ha hs hat
      refine hset a ?_ hs hat
      rw [hp.stretch.complete hm, List.take_length]
      exact h.accepted ▸ ha
  constructor
  · exact hp.holds
  · rw [hp.epoch]
    exact h.accepted
  · rw [hp.epoch]
    exact h.running
  · rw [hp.epoch]
    exact h.ended
  · exact h.distinct
  · intro r hr
    cases List.mem_append.mp hr with
    | inl hold =>
        obtain ⟨hepoch, hold'⟩ := h.readings r hold
        exact ⟨hepoch, hold'.add (List.ne_nil_of_mem hold)⟩
    | inr hnew =>
        cases List.mem_singleton.mp hnew
        exact ⟨by rw [show (reading s b page).page = page from rfl, hp.eventEpoch]; exact h.running, hanswers⟩
  · exact hposition.trans_le hp.stretch.next_le
  · show ((s.consumer.add (reading s b page)).received).Sublist _
    rw [s.consumer.received_add, hposition, hp.received]
    refine (h.received.append (List.Sublist.refl _)).trans ?_
    rw [← List.filter_append, hp.epoch]
    refine List.Sublist.filter _ ?_
    rw [List.append_assoc]
    refine (List.Sublist.refl past).append ?_
    rw [← tagged_append]
    refine List.Sublist.map _ ?_
    exact take_append_drop_sublist ((le_max_right dropped' _).trans hp.stretch.le_next) (le_max_right dropped' _)
  · dsimp only
    rw [hposition, hp.epoch]
    exact fun a ha hs hat => .inl (hset a ha hs hat)

/-- What a poll does: it forgets events, and a page it answers with is one more reading. -/
theorem Follows.polled (h : Follows s past log dropped) (now : ℚ) (limit : ℤ) : Followed (EventReaders.poll s now limit) := by
  obtain ⟨dropped', _, hb, hepoch, hpage⟩ :=
    h.holds.read now s.consumer.environment s.consumer.account s.consumer.cursor limit
  unfold EventReaders.poll
  split
  · next b heq =>
      rw [heq] at hb hepoch
      exact ⟨past, log, dropped', h.forget hb hepoch⟩
  · next page b heq =>
      rw [heq] at hb hepoch hpage
      obtain ⟨after, hafter, heventEpoch, hrestart, hstretch⟩ := hpage page rfl
      have hposition : after = s.consumer.position s.buffer.epoch := hafter
      exact ⟨past, log, dropped', h.poll ⟨hb, hepoch, heventEpoch, hrestart, hposition ▸ hstretch⟩⟩

/-- One transition: every action keeps the consumer's account of the accepted events. -/
theorem followed_step {t : Sys} {action : Action} (h : Followed s) (hstep : step s action = some t) : Followed t := by
  obtain ⟨past, log, dropped, h⟩ := h
  cases action with
  | append now observedAt kind account row =>
      obtain ⟨new, dropped', _, hb, hepoch, hgained⟩ := h.holds.append now observedAt kind account row
      cases hstep
      refine ⟨past, log ++ new, dropped', ?_⟩
      rw [hgained]
      exact h.frame hb hepoch
  | close =>
      obtain ⟨dropped', _, hb⟩ := h.holds.close
      cases hstep
      exact ⟨past, log, dropped', h.forget hb rfl⟩
  | resume =>
      cases hstep
      exact ⟨past, log, dropped, h.forget ⟨h.holds.events, h.holds.le, h.holds.sequence, h.holds.numbered⟩ rfl⟩
  | markReconnect =>
      cases hstep
      exact ⟨past, log, dropped, h.forget ⟨h.holds.events, h.holds.le, h.holds.sequence, h.holds.numbered⟩ rfl⟩
  | restart epoch bounds =>
      simp only [step] at hstep
      split at hstep
      · cases hstep
      · next hfresh =>
          cases hstep
          exact ⟨_, _, _, h.restart hfresh bounds⟩
  | read now environment account cursor limit =>
      obtain ⟨dropped', _, hb, hepoch, _⟩ := h.holds.read now environment account cursor limit
      cases hstep
      exact ⟨past, log, dropped', h.forget hb hepoch⟩
  | poll now limit =>
      cases hstep
      exact h.polled now limit

theorem Follows.nodup (h : Follows s past log dropped) : s.accepted.Nodup := by
  rw [h.accepted]
  refine List.nodup_append.mpr ⟨h.distinct, ?_, ?_⟩
  · exact h.holds.numbered.nodup.map (fun _ _ he => (Prod.mk.inj he).2)
  · intro a ha b hb he
    exact (h.ended a ha).2 (he ▸ (mem_tagged.mp hb).1)

theorem Follows.in_order (h : Follows s past log dropped) :
    s.consumer.received.Sublist (s.accepted.filter s.consumer.inScope) := by
  refine h.received.trans (List.Sublist.filter _ ?_)
  rw [h.accepted]
  exact (List.Sublist.refl past).append ((List.take_sublist _ _).map _)

/-- Along every run the consumer receives events of its scope at most once and in
the order of their acceptance. An event it attends that was dropped before a read
is one it got earlier, or one that a read after the drop reported a gap for; a
read with no more to come leaves no other event open, and one with more to come
returns some. -/
theorem missed_only_with_a_gap {epoch : Epoch} {bounds : Bounds} {environment : String} {account : Value}
    {actions : List Action} {s : Sys} (h : run step (initial epoch bounds environment account) actions = some s) :
    (s.accepted.Nodup ∧ s.consumer.received.Sublist (s.accepted.filter s.consumer.inScope)) ∧
    ∀ r ∈ s.consumer.readings,
      (∀ a, s.consumer.inScope a → s.consumer.attends a → r.lost a → s.consumer.settled a) ∧
      (r.page.hasMore = false → ∀ a ∈ r.accepted, s.consumer.inScope a → s.consumer.attends a → s.consumer.settled a) ∧
      (r.page.hasMore = true → r.page.events ≠ []) := by
  have hfollowed : Followed s :=
    (free_of_run h).invariant (followed_initial epoch bounds environment account)
      (fun _ _ _ hs hstep _ => followed_step hs hstep)
  obtain ⟨past, log, dropped, hf⟩ := hfollowed
  refine ⟨⟨hf.nodup, hf.in_order⟩, fun r hr => ?_⟩
  have hr' : Answers s.consumer r := (hf.readings r hr).2
  exact ⟨hr'.lost, hr'.complete, hr'.progress⟩

/-- An hour of retention for a hundred events. -/
def hourly : Bounds := ⟨100, 3600, by decide, by decide +kernel⟩

def orderRow : Fields := [("trd_env", .text "REAL"), ("order_id", .text "11")]

/-- Two orders of the account and a reader that takes one event at a time. -/
def oneByOne : List Action :=
  [.append 0 "t" "ORDER" (.text "7") orderRow, .append 1 "t" "ORDER" (.text "7") orderRow, .poll 2 1, .poll 3 1]

theorem two_events_delivered :
    ∃ s, run step (initial "first" hourly "REAL" (.text "7")) oneByOne = some s ∧ s.consumer.received.length = 2 ∧
      s.accepted.Nodup ∧ s.consumer.received.Sublist (s.accepted.filter s.consumer.inScope) := by
  have hrun : run step (initial "first" hourly "REAL" (.text "7")) oneByOne = some _ := rfl
  exact ⟨_, hrun, by decide +kernel, (missed_only_with_a_gap hrun).1⟩

def placed : Event := ⟨1, "ORDER", "t", "7", "REAL", [("order_id", .text "11")]⟩

/-- A process accepts an order event and ends before the consumer first reads. -/
def unattended : List Action :=
  [.append 0 "t" "ORDER" (.text "7") orderRow, .restart "second" hourly, .poll 1 100]

/-- The first read of a consumer, in a process that has accepted nothing. -/
def firstReading : Reading :=
  ⟨⟨"second", "REAL", "7", [], 0, false, 1, 0, false, false, 0⟩, [("first", placed)], []⟩

/-- The events of a process that ended before the first read are lost with no gap reported. -/
theorem unattended_loss :
    ∃ s a, run step (initial "first" hourly "REAL" (.text "7")) unattended = some s ∧ s.consumer.inScope a ∧
      (∃ r ∈ s.consumer.readings, r.lost a) ∧ ¬s.consumer.settled a := by
  refine ⟨⟨⟨"second", hourly, [], 0, true, 0⟩, ["first", "second"], [("first", placed)],
    ⟨"REAL", .text "7", [firstReading]⟩⟩, ("first", placed), rfl, rfl, ?_, ?_⟩
  · exact ⟨firstReading, List.mem_cons_self, List.mem_cons_self, List.not_mem_nil⟩
  · rintro (hreceived | ⟨r, hr, _, hgap⟩)
    · exact absurd hreceived List.not_mem_nil
    · cases List.mem_singleton.mp hr
      cases hgap with
      | inl hretention => cases hretention
      | inr hrestart => cases hrestart

end MoomooMcp.EventReaders
