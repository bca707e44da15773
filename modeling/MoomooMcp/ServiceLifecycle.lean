import MoomooMcp.Settings

namespace MoomooMcp.ServiceLifecycle

/-- What a process holds while it serves: the two journals under their locks, the trading
controls, and the services with their connections. -/
inductive Resource
  | paperJournal
  | realJournal
  | controls
  | moomooService
  | tradeService
  deriving DecidableEq, Repr

/-- What the settings of a process ask for. -/
structure Config where
  journal : Bool
  realJournal : Bool
  controls : Bool
  deriving DecidableEq, Repr

def configOf (s : Settings) : Config := ⟨s.journalPath.isSome, s.realJournalPath.isSome, s.controlsPath.isSome⟩

/-- The calls of a startup that can raise. -/
inductive Call
  | loadSettings
  | openPaper
  | openReal
  | openControls
  | moomooService
  | tradeService
  | start
  deriving DecidableEq, Repr

abbrev Faults := Call → Bool

def wanted (yes : Bool) (r : Resource) : List Resource := if yes then [r] else []

def Config.stores (c : Config) : List Resource := wanted c.journal .paperJournal ++ wanted c.realJournal .realJournal

/-- Everything that the services of a process own. -/
def Config.owned (c : Config) : List Resource := c.stores ++ wanted c.controls .controls ++ [.moomooService, .tradeService]

def release (rs opened : List Resource) : List Resource := opened.filter (fun r => !rs.contains r)

/-- The journals are locked, against this process too. -/
def Resource.locked : Resource → Bool
  | .paperJournal | .realJournal => true
  | _ => false

/-- Open a resource if it is asked for. -/
def acquire (yes fault : Bool) (r : Resource) (opened : List Resource) : Option (List Resource) :=
  if !yes then some opened
  else if fault || (r.locked && opened.contains r) then none
  else some (r :: opened)

/-- `_open_execution_stores`: what is open after it, and whether it returned. -/
def openExecutionStores (c : Config) (fault : Faults) (opened : List Resource) : List Resource × Bool :=
  match acquire c.journal (fault .openPaper) .paperJournal opened with
  | none => (opened, false)
  | some opened' =>
      match acquire c.realJournal (fault .openReal) .realJournal opened' with
      | none => (release (wanted c.journal .paperJournal) opened', false)
      | some opened'' => (opened'', true)

/-- `TradeService.close`. -/
def closeTrade (c : Config) (opened : List Resource) : List Resource :=
  release (.tradeService :: (c.stores ++ wanted c.controls .controls)) opened

def closeMoomoo (opened : List Resource) : List Resource := release [.moomooService] opened

/-- The construction of the services, once the stores are open. -/
def buildServices (c : Config) (fault : Faults) (opened : List Resource) : List Resource × Bool :=
  match acquire c.controls (fault .openControls) .controls opened with
  | none => (release c.stores opened, false)
  | some opened =>
      match acquire true (fault .moomooService) .moomooService opened with
      | none => (release (wanted c.controls .controls) (release c.stores opened), false)
      | some opened =>
          match acquire true (fault .tradeService) .tradeService opened with
          | none => (release (wanted c.controls .controls) (closeMoomoo (release c.stores opened)), false)
          | some opened => if fault .start then (closeMoomoo (closeTrade c opened), false) else (opened, true)

structure Process where
  opened : List Resource := []
  services : Option Config := none
  prepared : Option Config := none
  deriving DecidableEq, Repr

/-- The journals that `main` opens before it serves. -/
def prepare (c : Config) (fault : Faults) (p : Process) : Process :=
  if (c.journal || c.realJournal) && p.services.isNone && p.prepared.isNone then
    let (opened, ok) := openExecutionStores c fault p.opened
    { p with opened := opened, prepared := if ok then some c else none }
  else p

/-- `get_services`, with the settings that it would load. -/
def getServices (loaded : Config) (fault : Faults) (p : Process) : Process :=
  if p.services.isSome then p
  else
    match p.prepared with
    | some c =>
        let (opened, ok) := buildServices c fault p.opened
        ⟨opened, if ok then some c else none, none⟩
    | none =>
        if fault .loadSettings then p
        else
          match openExecutionStores loaded fault p.opened with
          | (opened, false) => { p with opened := opened }
          | (opened, true) =>
              let (opened, ok) := buildServices loaded fault opened
              ⟨opened, if ok then some loaded else none, none⟩

/-- `close_services`. -/
def closeServices (p : Process) : Process :=
  let opened := p.prepared.elim p.opened (fun c => release c.stores p.opened)
  ⟨p.services.elim opened (fun c => closeMoomoo (closeTrade c opened)), none, none⟩

inductive Event
  | prepare (c : Config) (fault : Faults)
  | get (c : Config) (fault : Faults)
  | close

def step (p : Process) : Event → Process
  | .prepare c fault => prepare c fault p
  | .get c fault => getServices c fault p
  | .close => closeServices p

def run (p : Process) (events : List Event) : Process := events.foldl step p

/-- What the process could still close. -/
def Process.owned (p : Process) : List Resource := p.services.elim [] Config.owned ++ p.prepared.elim [] Config.stores

/-- Open is what has an owner, and once. -/
structure Kept (p : Process) : Prop where
  once : p.opened.Nodup
  owned : ∀ r, r ∈ p.opened ↔ r ∈ p.owned
  single : p.services = none ∨ p.prepared = none

variable {c : Config} {fault : Faults} {opened opened' : List Resource} {r x : Resource} {yes raises : Bool}

theorem mem_wanted : x ∈ wanted yes r ↔ yes = true ∧ x = r := by
  cases yes <;> simp [wanted]

theorem mem_release {rs : List Resource} : x ∈ release rs opened ↔ x ∈ opened ∧ x ∉ rs := by
  simp [release]

theorem release_release {rs rs' : List Resource} : release rs (release rs' opened) = release (rs' ++ rs) opened := by
  rw [release, release, List.filter_filter]
  apply List.filter_congr
  intro x _
  simp [Bool.and_comm]

theorem nodup_release {rs : List Resource} (h : opened.Nodup) : (release rs opened).Nodup := h.filter _

theorem acquire_some (h : acquire yes raises r opened = some opened') (hfree : r ∉ opened) :
    (opened.Nodup → opened'.Nodup) ∧ ∀ x, x ∈ opened' ↔ x ∈ opened ∨ x ∈ wanted yes r := by
  rw [acquire] at h
  cases yes with
  | false =>
      cases h
      exact ⟨id, fun x => by simp [wanted]⟩
  | true =>
      simp only [Bool.not_true, Bool.false_eq_true, if_false] at h
      split_ifs at h
      cases h
      refine ⟨fun hnodup => List.nodup_cons.mpr ⟨hfree, hnodup⟩, fun x => ?_⟩
      rw [List.mem_cons, mem_wanted]
      tauto

/-- Only a fault keeps a resource that is not open from being opened. -/
theorem acquire_free (yes : Bool) (hfault : raises = false) (hfree : r ∉ opened) : ∃ opened', acquire yes raises r opened = some opened' := by
  cases yes with
  | false => exact ⟨opened, rfl⟩
  | true => exact ⟨r :: opened, by simp [acquire, hfault, hfree]⟩

/-- What is open is what these own, once. -/
def Exactly (rs opened : List Resource) : Prop := opened.Nodup ∧ ∀ x, x ∈ opened ↔ x ∈ rs

theorem exactly_nil : Exactly [] opened ↔ opened = [] := by
  constructor
  · intro h
    exact List.eq_nil_iff_forall_not_mem.mpr (fun x hx => absurd ((h.2 x).mp hx) List.not_mem_nil)
  · rintro rfl
    exact ⟨List.nodup_nil, fun x => Iff.rfl⟩

theorem Exactly.acquire {rs : List Resource} (h : Exactly rs opened) (hfree : r ∉ rs)
    (hacquire : acquire yes raises r opened = some opened') : Exactly (rs ++ wanted yes r) opened' := by
  obtain ⟨hnodup, hmem⟩ := acquire_some hacquire (fun hr => hfree ((h.2 r).mp hr))
  refine ⟨hnodup h.1, fun x => ?_⟩
  rw [hmem, h.2, List.mem_append]

theorem Exactly.emptied {rs released : List Resource} (h : Exactly rs opened) (hall : ∀ x ∈ rs, x ∈ released) :
    release released opened = [] := by
  rw [← exactly_nil]
  refine ⟨nodup_release h.1, fun x => ?_⟩
  rw [mem_release, h.2]
  exact iff_of_false (fun hx => hx.2 (hall x hx.1)) List.not_mem_nil

theorem openExecutionStores_exactly (c : Config) (fault : Faults) :
    ∃ opened ok, openExecutionStores c fault [] = (opened, ok) ∧ Exactly (if ok then c.stores else []) opened ∧
      ((∀ call, fault call = false) → ok = true) := by
  have hnone : Exactly [] [] := exactly_nil.mpr rfl
  rw [openExecutionStores]
  cases hpaper : acquire c.journal (fault .openPaper) .paperJournal [] with
  | none =>
      refine ⟨_, _, rfl, hnone, fun hfree => ?_⟩
      obtain ⟨_, h⟩ := acquire_free c.journal (hfree .openPaper) (List.not_mem_nil (a := Resource.paperJournal))
      cases hpaper.symm.trans h
  | some opened =>
      have hopened := hnone.acquire List.not_mem_nil hpaper
      rw [List.nil_append] at hopened
      have hapart : Resource.realJournal ∉ wanted c.journal .paperJournal := by simp [mem_wanted]
      dsimp only
      cases hreal : acquire c.realJournal (fault .openReal) .realJournal opened with
      | none =>
          refine ⟨_, _, rfl, exactly_nil.mpr (hopened.emptied (fun x hx => hx)), fun hfree => ?_⟩
          obtain ⟨_, h⟩ := acquire_free c.realJournal (hfree .openReal) (fun hr => hapart ((hopened.2 _).mp hr))
          cases hreal.symm.trans h
      | some opened' => exact ⟨_, _, rfl, hopened.acquire hapart hreal, fun _ => rfl⟩

theorem mem_stores : x ∈ c.stores ↔ (c.journal = true ∧ x = .paperJournal) ∨ (c.realJournal = true ∧ x = .realJournal) := by
  rw [Config.stores, List.mem_append, mem_wanted, mem_wanted]

theorem mem_owned : x ∈ c.owned ↔ x ∈ c.stores ∨ (c.controls = true ∧ x = .controls) ∨ x = .moomooService ∨ x = .tradeService := by
  simp only [Config.owned, List.mem_append, mem_wanted, List.mem_cons, List.not_mem_nil, or_false, or_assoc]

/-- Every way out of the construction closes what was opened, and only the last keeps it. -/
theorem buildServices_exactly (h : Exactly c.stores opened) :
    ∃ opened' ok, buildServices c fault opened = (opened', ok) ∧ Exactly (if ok then c.owned else []) opened' ∧
      ((∀ call, fault call = false) → ok = true) := by
  have hfree : ∀ {rs opened r}, Exactly rs opened → r ∉ rs → r ∉ opened := fun h hr hin => hr ((h.2 _).mp hin)
  have hcontrols : Resource.controls ∉ c.stores := by simp [mem_stores]
  have hmoomoo : Resource.moomooService ∉ c.stores ++ wanted c.controls .controls := by simp [mem_stores, mem_wanted]
  have htrade : Resource.tradeService ∉ (c.stores ++ wanted c.controls .controls) ++ wanted true .moomooService := by
    simp [mem_stores, mem_wanted]
  rw [buildServices]
  cases hc : acquire c.controls (fault .openControls) .controls opened with
  | none =>
      refine ⟨_, _, rfl, exactly_nil.mpr (h.emptied (fun x hx => hx)), fun hnone => ?_⟩
      obtain ⟨_, hopens⟩ := acquire_free c.controls (hnone .openControls) (hfree h hcontrols)
      cases hc.symm.trans hopens
  | some opened₁ =>
      have h₁ := h.acquire hcontrols hc
      dsimp only
      cases hm : acquire true (fault .moomooService) .moomooService opened₁ with
      | none =>
          refine ⟨_, _, rfl, exactly_nil.mpr ?_, fun hnone => ?_⟩
          · rw [release_release]
            exact h₁.emptied (fun x hx => hx)
          · obtain ⟨_, hopens⟩ := acquire_free true (hnone .moomooService) (hfree h₁ hmoomoo)
            cases hm.symm.trans hopens
      | some opened₂ =>
          have h₂ := h₁.acquire hmoomoo hm
          dsimp only
          cases ht : acquire true (fault .tradeService) .tradeService opened₂ with
          | none =>
              refine ⟨_, _, rfl, exactly_nil.mpr ?_, fun hnone => ?_⟩
              · rw [closeMoomoo, release_release, release_release]
                refine h₂.emptied (fun x hx => ?_)
                simp only [List.mem_append, mem_wanted, List.mem_cons, List.not_mem_nil, or_false] at hx ⊢
                tauto
              · obtain ⟨_, hopens⟩ := acquire_free true (hnone .tradeService) (hfree h₂ htrade)
                cases ht.symm.trans hopens
          | some opened₃ =>
              have h₃ := h₂.acquire htrade ht
              dsimp only
              cases hs : fault .start with
              | true =>
                  refine ⟨_, _, rfl, exactly_nil.mpr ?_, fun hnone => ?_⟩
                  · rw [closeMoomoo, closeTrade, release_release]
                    refine h₃.emptied (fun x hx => ?_)
                    simp only [List.mem_append, mem_wanted, List.mem_cons, List.not_mem_nil, or_false] at hx ⊢
                    tauto
                  · rw [hnone .start] at hs
                    cases hs
              | false =>
                  refine ⟨_, _, rfl, ⟨h₃.1, fun x => ?_⟩, fun _ => rfl⟩
                  rw [h₃.2]
                  simp only [if_true, mem_owned, List.mem_append, mem_wanted, true_and, or_assoc]

theorem kept_iff {p : Process} : Kept p ↔ Exactly p.owned p.opened ∧ (p.services = none ∨ p.prepared = none) :=
  ⟨fun h => ⟨⟨h.once, h.owned⟩, h.single⟩, fun h => ⟨h.1.1, h.1.2, h.2⟩⟩

variable {p : Process}

theorem kept_prepare (h : Kept p) : Kept (prepare c fault p) := by
  rw [prepare]
  split_ifs with hidle
  · simp only [Bool.and_eq_true, Option.isNone_iff_eq_none] at hidle
    obtain ⟨⟨-, hservices⟩, hprepared⟩ := hidle
    have hnone : p.opened = [] := by
      have hexact := (kept_iff.mp h).1
      rw [Process.owned, hservices, hprepared] at hexact
      exact exactly_nil.mp hexact
    obtain ⟨opened, ok, hopen, hexact, -⟩ := openExecutionStores_exactly c fault
    rw [hnone, hopen]
    refine kept_iff.mpr ⟨?_, .inl hservices⟩
    cases ok <;> simpa [Process.owned, hservices] using hexact
  · exact h

theorem kept_get (h : Kept p) : Kept (getServices c fault p) ∧
    ((∀ call, fault call = false) → (getServices c fault p).services.isSome = true) := by
  rw [getServices]
  cases hservices : p.services with
  | some d => exact ⟨by simpa using h, fun _ => by simp [hservices]⟩
  | none =>
      simp only [Option.isSome_none, Bool.false_eq_true, if_false]
      have hexact := (kept_iff.mp h).1
      rw [Process.owned, hservices] at hexact
      cases hprepared : p.prepared with
      | some d =>
          rw [hprepared] at hexact
          obtain ⟨opened, ok, hbuild, hbuilt, hfree⟩ := @buildServices_exactly d fault p.opened hexact
          dsimp only
          rw [hbuild]
          refine ⟨kept_iff.mpr ⟨?_, .inr rfl⟩, fun hnone => ?_⟩
          · cases ok <;> simpa [Process.owned] using hbuilt
          · simp [hfree hnone]
      | none =>
          rw [hprepared] at hexact
          have hnil : p.opened = [] := exactly_nil.mp hexact
          dsimp only
          split_ifs with hload
          · exact ⟨h, fun hnone => by rw [hnone .loadSettings] at hload; cases hload⟩
          · obtain ⟨opened, ok, hopen, hopened, hstores⟩ := openExecutionStores_exactly c fault
            rw [hnil, hopen]
            cases ok with
            | false =>
                refine ⟨kept_iff.mpr ⟨?_, .inl rfl⟩, fun hnone => nomatch hstores hnone⟩
                simpa [Process.owned] using hopened
            | true =>
                obtain ⟨opened', ok, hbuild, hbuilt, hfree⟩ := @buildServices_exactly c fault opened hopened
                dsimp only
                rw [hbuild]
                refine ⟨kept_iff.mpr ⟨?_, .inr rfl⟩, fun hnone => ?_⟩
                · cases ok <;> simpa [Process.owned] using hbuilt
                · simp [hfree hnone]

theorem close_empties (h : Kept p) : (closeServices p).opened = [] := by
  have hexact := (kept_iff.mp h).1
  rw [Process.owned] at hexact
  rw [closeServices]
  rcases h.single with hservices | hprepared
  · rw [hservices] at hexact ⊢
    cases hprepared : p.prepared with
    | none =>
        rw [hprepared] at hexact
        exact exactly_nil.mp hexact
    | some d =>
        rw [hprepared] at hexact
        exact hexact.emptied (fun x hx => hx)
  · rw [hprepared] at hexact ⊢
    cases hservices : p.services with
    | none =>
        rw [hservices] at hexact
        exact exactly_nil.mp hexact
    | some d =>
        rw [hservices] at hexact
        show closeMoomoo (closeTrade d p.opened) = []
        rw [closeMoomoo, closeTrade, release_release]
        refine hexact.emptied (fun x hx => ?_)
        simp only [Option.elim_some, Option.elim_none, List.append_nil, mem_owned] at hx
        simp only [List.mem_append, List.mem_cons, mem_wanted, List.not_mem_nil, or_false]
        tauto

theorem kept_step (h : Kept p) (e : Event) : Kept (step p e) := by
  cases e with
  | prepare c fault => exact kept_prepare h
  | get c fault => exact (kept_get h).1
  | close => exact kept_iff.mpr ⟨exactly_nil.mpr (close_empties h), .inl rfl⟩

theorem kept_run (events : List Event) : Kept (run {} events) := by
  have hall : ∀ (events : List Event) p, Kept p → Kept (run p events) := by
    intro events
    induction events with
    | nil => exact fun p h => h
    | cons e events ih => exact fun p h => ih _ (kept_step h e)
  exact hall events {} (kept_iff.mpr ⟨exactly_nil.mpr rfl, .inl rfl⟩)

/-- A first use in which the trade service cannot be constructed. -/
def refused : Event := .get ⟨true, true, true⟩ (fun call => call = .tradeService)

end MoomooMcp.ServiceLifecycle
