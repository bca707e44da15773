import MoomooMcp.ControlsOpening
import MoomooMcp.Reopening

namespace MoomooMcp

open CrashPoints Durable

namespace ExecutionStore

variable {o : Options} {epoch : Epoch} {fault : Fault} {d : Disk} {k : ℕ} {new : List Epoch} {j : Journal}

/-- A journal with all its tables of the current schema, and nothing in them but epochs. -/
structure Complete (environment : Environment) (j : Journal) : Prop where
  environment : j.environment = environment
  operations : ∀ k, j.row k = none
  reviews : j.reviews = ∅
  checks : j.checks = []
  audits : j.audits = []

/-- Opening succeeds, and leaves a complete empty journal. -/
def Initialises (o : Options) (epoch : Epoch) (d : Disk) : Prop :=
  ∃ st j, (openStore o epoch .none).result d = .ok st ∧ (openStore o epoch .none).left d = journal j ∧
    Complete o.environment j

abbrev schemaScript (o : Options) : Contents := .second (.initial o.environment)

theorem Recovered.complete (h : Recovered (schemaScript o) new j) : Complete o.environment j where
  environment := h.environment
  operations k := by
    rw [h.rows]
    rfl
  reviews := by
    apply Finset.eq_empty_of_forall_notMem
    intro p hp
    rcases h.known p hp with hp | ⟨_, hr⟩
    · cases hp
    · cases hr
  checks := h.checks
  audits := h.audits

/-- From the commit of the schema script on, every crash leaves something that opens. -/
theorem Carried.initialises (h : Carried (schemaScript o) d) (hfresh : ∀ c, d = .file (some c) → epoch ∉ c.epochs) :
    Initialises o epoch d := by
  have hok : (openStore o epoch .none).result d = .ok ⟨epoch, false, none⟩ := by
    cases h with
    | same => exact openFile_succeeds rfl (hfresh _ rfl)
    | migrated => exact openFile_succeeds rfl (hfresh _ rfl)
    | recovered new j hj => exact openFile_succeeds hj.environment (hfresh _ rfl)
  obtain ⟨-, new, j, hj, -, hl⟩ := h.reopened hok
  exact ⟨_, j, hok, hl, hj.complete⟩

theorem openStore_missing (hcreate : o.create = true) : openStore o epoch fault .missing =
    (do
      write (.file none)
      write (.file (some (schemaScript o)))
      openFile o epoch fault (some (schemaScript o)) : Durable Disk Exc Store) .missing := by
  change (if o.create = true then _ else _ : Durable Disk Exc Store) .missing = _
  rw [if_pos hcreate]

theorem crashes_missing (hcreate : o.create = true) : (openStore o epoch fault).crashes .missing =
    .missing :: .file none :: (openFile o epoch fault (some (schemaScript o))).crashes (.file (some (schemaScript o))) := by
  rw [crashes, openStore_missing hcreate]
  rfl

theorem missing_initialises (hcreate : o.create = true) : Initialises o epoch .missing := by
  have hok : (openFile o epoch .none (some (schemaScript o))).result (.file (some (schemaScript o))) =
      .ok ⟨epoch, false, none⟩ := openFile_succeeds rfl (by simp [Contents.epochs, Legacy.initial])
  obtain ⟨-, j, hs, hl⟩ := openFile_ok hok
  refine ⟨⟨epoch, false, none⟩, j, ?_, ?_, hs.recovered.complete⟩
  · rw [result, openStore_missing hcreate]
    exact hok
  · rw [left, openStore_missing hcreate]
    exact hl

/-- The file that was only created is refused for good, and stays as it is. -/
theorem blank_refused : openStore o epoch fault (.file none) =
    ([], .error (storeError "Unsupported journal schema 0; expected 3")) := rfl

/-- The first opening can be crashed anywhere but between the creation of the file
and the commit of the schema script. -/
theorem crash_initialises {epoch' : Epoch} (hcreate : o.create = true) (hepoch : epoch' ≠ epoch)
    (hd : ((openStore o epoch fault).crashes .missing)[k]? = some d) : Initialises o epoch' d ↔ k ≠ 1 := by
  rw [crashes_missing hcreate] at hd
  rcases k with _ | _ | k
  · cases hd
    exact iff_of_true (missing_initialises hcreate) (by decide)
  · cases hd
    refine iff_of_false ?_ (by decide)
    rintro ⟨_, _, hok, _⟩
    rw [result, blank_refused] at hok
    cases hok
  · have hmem : d ∈ (openFile o epoch fault (some (schemaScript o))).crashes (.file (some (schemaScript o))) :=
      List.mem_of_getElem? hd
    refine iff_of_true ?_ (by omega)
    rcases openFile_crashes hmem with rfl | rfl | ⟨j', hs, rfl⟩
    · exact Carried.same.initialises (fun c hc => by cases hc; exact List.not_mem_nil)
    · exact Carried.migrated.initialises (fun c hc => by cases hc; exact List.not_mem_nil)
    · refine (Carried.recovered _ _ hs.recovered).initialises (fun c hc => ?_)
      cases hc
      rw [Contents.epochs, hs.recovered.epochs]
      simpa [schemaScript, Contents.epochs, Legacy.initial] using hepoch

end ExecutionStore

namespace TradingControls

/-- Opening succeeds, and leaves a complete empty file. -/
def Initialises (d : Option File) : Prop :=
  (openControls true).result d = .ok .opened ∧ (openControls true).left d = some .complete

theorem crashes_missing : (openControls true).crashes none =
    [none, some .blank, some ⟨some [], none, none, false, none⟩, some ⟨some [1], none, none, false, none⟩,
      some ⟨some [1], some .empty, none, false, none⟩, some ⟨some [1], some .empty, some .empty, false, none⟩,
      some ⟨some [1], some .empty, some .empty, true, none⟩, some .complete] := rfl

/-- The first opening can be crashed before the file is created, or after the
last statement of the script. -/
theorem crash_initialises {k : ℕ} {d : Option File} (hd : ((openControls true).crashes none)[k]? = some d) :
    Initialises d ↔ k = 0 ∨ 6 ≤ k := by
  rw [crashes_missing] at hd
  match k with
  | 0 | 6 | 7 =>
      cases hd
      exact ⟨fun _ => by decide, fun _ => ⟨rfl, rfl⟩⟩
  | 1 | 2 | 3 | 4 =>
      cases hd
      exact ⟨fun h => (nomatch h.1), fun h => absurd h (by decide)⟩
  | 5 =>
      -- Everything but the index is there, so that the file is accepted without it.
      cases hd
      exact ⟨fun h => absurd (congrArg (Option.map File.dailyCharge) h.2) (by decide), fun h => absurd h (by decide)⟩
  | k + 8 => cases hd

end TradingControls

def paperJournal : ExecutionStore.Options := ⟨"journal.db", true, .simulate⟩

/-- A crash right after the file was created: both stores refuse it whenever they are opened. -/
theorem created_file_refused :
    (.file none ∈ (ExecutionStore.openStore paperJournal "e1" .none).crashes .missing ∧
      ∀ epoch fault, ExecutionStore.openStore paperJournal epoch fault (.file none) =
        ([], .error (ExecutionStore.storeError "Unsupported journal schema 0; expected 3"))) ∧
    some .blank ∈ (TradingControls.openControls true).crashes none ∧
      TradingControls.openControls true (some .blank) = ([], .error TradingControls.unavailable) :=
  ⟨⟨.tail _ (.head _), fun _ _ => rfl⟩, .tail _ (.head _), rfl⟩

/-- What a crash of the first opening leaves can be opened, as a complete empty
store, exactly if the schema was there as a whole or the file was not. -/
theorem first_initialisation {o : ExecutionStore.Options} {epoch epoch' : Epoch} (hcreate : o.create = true)
    (hepoch : epoch' ≠ epoch) :
    (∀ fault k d, ((ExecutionStore.openStore o epoch fault).crashes .missing)[k]? = some d →
      (ExecutionStore.Initialises o epoch' d ↔ k ≠ 1)) ∧
    ∀ k d, ((TradingControls.openControls true).crashes none)[k]? = some d →
      (TradingControls.Initialises d ↔ k = 0 ∨ 6 ≤ k) :=
  ⟨fun _ _ _ hd => ExecutionStore.crash_initialises hcreate hepoch hd, fun _ _ hd => TradingControls.crash_initialises hd⟩

theorem paper_initialisation :
    ExecutionStore.Initialises paperJournal "e2" (.file (some (ExecutionStore.schemaScript paperJournal))) :=
  ((first_initialisation (o := paperJournal) rfl (by decide : "e2" ≠ "e1")).1 .none 2 _ rfl).mpr (by decide)

end MoomooMcp
