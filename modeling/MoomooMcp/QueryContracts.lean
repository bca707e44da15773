import MoomooMcp.Serialization

namespace MoomooMcp.QueryContracts

open Serialization (Key Data FloatValue)

def comboFields : List String := ["code", "trd_side", "qty_ratio", "position_id", "pred_side"]

/-- A value as the SDK returns it. A leg has attributes, null where there is none; a date
is known by its ISO form, and an object of any further type by the name of its type. -/
inductive Record
  | null
  | bool (b : Bool)
  | int (z : ℤ)
  | real (x : FloatValue)
  | text (s : String)
  | date (iso : String)
  | other (type : String)
  | leg (attr : String → Record)
  | list (items : List Record)
  | tuple (items : List Record)
  | dict (entries : List (Key × Record))

/-- A classified query or response failure, or the error of the conversion of an integer. -/
inductive Raised
  | tradeQueryError (code operation message : String)
  | valueError (message : String)

def invalidIdentifier (message : String) : Raised := .tradeQueryError "INVALID_IDENTIFIER" "response" message

/-- `str(value)` of an integer. -/
def str (z : ℤ) : Except Raised String :=
  match Serialization.str z with
  | .ok text => .ok text
  | .error (.valueError message) | .error (.identifierSerializationError message) => .error (.valueError message)

/-- Refuse floating-point identifiers instead of hiding lost precision. -/
def exactIdentifier (value : Record) (field : String) : Except Raised (Option String) :=
  match value with
  | .null | .real .nan => .ok none
  | .bool _ => .error (invalidIdentifier (field ++ " is boolean"))
  | .int z => (str z).map some
  | .text s => .ok (some s)
  | _ => .error (invalidIdentifier (field ++ " must be an exact string or integer"))

def identifierData : Option String → Data
  | none => .null
  | some s => .text s

mutual

/-- `plain_record`, of a value that is no identifier: a copy as JSON has it. Numbers that
are unavailable remain null. -/
def plainRecord : Record → Except Raised Data
  | .null => .ok .null
  | .bool b => .ok (.bool b)
  | .int z => .ok (.int z)
  | .real (.finite d) => .ok (.float (.finite d))
  | .real _ => .ok .null
  | .text s => .ok (.text s)
  | .date iso => .ok (.text iso)
  | .other type => .error (.tradeQueryError "INVALID_RESPONSE" "response" ("unsupported field type " ++ type))
  | .leg attr => do
      let entries ← comboFields.mapM (fun name => do
        let value ← (match (Key.text name).identifier with
          | some field => (exactIdentifier (attr name) field).map identifierData
          | none => plainRecord (attr name))
        return (Key.text name, value))
      return .dict entries
  | .list items => do return .list (← plainItems items)
  | .tuple items => do return .list (← plainItems items)
  | .dict entries => do return .dict (← plainEntries entries)

def plainItems : List Record → Except Raised (List Data)
  | [] => .ok []
  | item :: items => do
      let item ← plainRecord item
      return item :: (← plainItems items)

def plainEntries : List (Key × Record) → Except Raised (List (Key × Data))
  | [] => .ok []
  | (key, value) :: entries => do
      let value ← (match key.identifier with
        | some field => (exactIdentifier value field).map identifierData
        | none => plainRecord value)
      return (key, value) :: (← plainEntries entries)

end

/-- `plain_record(value, key)`. -/
def plainField (key : Key) (value : Record) : Except Raised Data :=
  match key.identifier with
  | some field => (exactIdentifier value field).map identifierData
  | none => plainRecord value

def plainEntry (e : Key × Record) : Except Raised (Key × Data) := (plainField e.1 e.2).map (Prod.mk e.1)

/-- The fields that are read of a leg. -/
def attrs (attr : String → Record) : List (Key × Record) :=
  comboFields.map (fun name => (.text name, attr name))

/-- Legs of the SDK as dictionaries. -/
def plainComboLeg : Record → Record
  | .leg attr => .dict (attrs attr)
  | leg => leg

def plainComboLegs (entries : List (Key × Record)) : List (Key × Record) :=
  entries.map (fun e =>
    if e.1 = .text "combo_legs" then
      match e.2 with
      | .list legs | .tuple legs => (e.1, .list (legs.map plainComboLeg))
      | _ => e
    else e)

theorem plainItems_eq (items : List Record) : plainItems items = items.mapM plainRecord := by
  induction items with
  | nil => rw [plainItems, List.mapM_nil]; rfl
  | cons item items ih => rw [plainItems, List.mapM_cons, ih]

theorem plainEntries_eq (entries : List (Key × Record)) : plainEntries entries = entries.mapM plainEntry := by
  induction entries with
  | nil => rw [plainEntries, List.mapM_nil]; rfl
  | cons e entries ih =>
      obtain ⟨key, value⟩ := e
      rw [plainEntries, List.mapM_cons, ih, plainEntry, plainField]
      cases key.identifier <;> simp [← Checks.bind_pure_map]

/-- The induction on the nesting. -/
theorem Record.nested {P : Record → Prop} (null : P .null) (bool : ∀ b, P (.bool b)) (int : ∀ z, P (.int z))
    (real : ∀ x, P (.real x)) (text : ∀ s, P (.text s)) (date : ∀ iso, P (.date iso)) (other : ∀ type, P (.other type))
    (leg : ∀ attr, (∀ name, P (attr name)) → P (.leg attr))
    (list : ∀ items, (∀ x ∈ items, P x) → P (.list items)) (tuple : ∀ items, (∀ x ∈ items, P x) → P (.tuple items))
    (dict : ∀ entries, (∀ e ∈ entries, P e.2) → P (.dict entries)) (value : Record) : P value :=
  value.rec null bool int real text date other leg list tuple dict
    (fun _ hx => absurd hx List.not_mem_nil)
    (fun _ _ hitem hitems => List.forall_mem_cons.mpr ⟨hitem, hitems⟩)
    (fun _ he => absurd he List.not_mem_nil)
    (fun _ _ hentry hentries => List.forall_mem_cons.mpr ⟨hentry, hentries⟩)
    (fun _ _ hvalue => hvalue)

theorem plain_list (items : List Record) : plainRecord (.list items) = (items.mapM plainRecord).map .list := by
  rw [plainRecord, Checks.bind_pure_map, plainItems_eq]

theorem plain_tuple (items : List Record) : plainRecord (.tuple items) = (items.mapM plainRecord).map .list := by
  rw [plainRecord, Checks.bind_pure_map, plainItems_eq]

theorem plain_dict (entries : List (Key × Record)) : plainRecord (.dict entries) = (entries.mapM plainEntry).map .dict := by
  rw [plainRecord, Checks.bind_pure_map, plainEntries_eq]

/-- A leg is read as the dictionary of its fields. -/
theorem plain_leg (attr : String → Record) : plainRecord (.leg attr) = plainRecord (.dict (attrs attr)) := by
  rw [plain_dict, plainRecord, Checks.bind_pure_map, attrs, List.mapM_map]
  congr 2

/-- The fields of a mapping or a leg. -/
def Record.entries : Record → List (Key × Record)
  | .dict entries => entries
  | .leg attr => attrs attr
  | _ => []

def Record.items : Record → List Record
  | .list items | .tuple items => items
  | _ => []

/-- The copy descends to the second record. -/
inductive Reaches : Record → Record → Prop
  | self {v} : Reaches v v
  | entry {v e w} (he : e ∈ v.entries) (h : e.1.identifier = none) (hin : Reaches e.2 w) : Reaches v w
  | item {v x w} (hx : x ∈ v.items) (hin : Reaches x w) : Reaches v w

/-- The copy descends to a mapping or a leg that has the value under the field of an identifier. -/
def Holds (v : Record) (field : String) (w : Record) : Prop :=
  ∃ u, Reaches v u ∧ ∃ e ∈ u.entries, e.1.identifier = some field ∧ e.2 = w

/-- A value that is an identifier without loss, with its text. -/
inductive Exact : Record → Option String → Prop
  | null : Exact .null none
  | nan : Exact (.real .nan) none
  | int {z : ℤ} (h : Decimal.digits z.natAbs ≤ 4300) : Exact (.int z) (some (toString z))
  | text (s : String) : Exact (.text s) (some s)

theorem str_ok {z : ℤ} {t : String} : str z = .ok t ↔ Decimal.digits z.natAbs ≤ 4300 ∧ toString z = t := by
  rw [str, Serialization.str]
  by_cases hlong : 4300 < Decimal.digits z.natAbs
  · rw [if_pos hlong]
    exact iff_of_false (fun h => by cases h) (fun h => absurd h.1 (not_le.mpr hlong))
  · rw [if_neg hlong]
    exact ⟨fun h => ⟨not_lt.mp hlong, Except.ok.inj h⟩, fun h => congrArg _ h.2⟩

theorem exactIdentifier_ok {v : Record} {field : String} {id : Option String} : exactIdentifier v field = .ok id ↔ Exact v id := by
  constructor
  · intro h
    cases v with
    | null => cases h; exact .null
    | int z =>
        obtain ⟨t, ht, rfl⟩ := Checks.map_ok.mp h
        obtain ⟨hlong, rfl⟩ := str_ok.mp ht
        exact .int hlong
    | text s => cases h; exact .text s
    | real x =>
        cases x with
        | nan => cases h; exact .nan
        | infinite => cases h
        | finite => cases h
    | _ => cases h
  · intro h
    cases h with
    | int hlong => exact Checks.map_ok.mpr ⟨_, str_ok.mpr ⟨hlong, rfl⟩, rfl⟩
    | _ => rfl

theorem plainEntry_identifier {e : Key × Record} {field : String} (h : e.1.identifier = some field) :
    plainEntry e = ((exactIdentifier e.2 field).map identifierData).map (Prod.mk e.1) := by
  rw [plainEntry, plainField, h]

theorem plainEntry_other {e : Key × Record} (h : e.1.identifier = none) : plainEntry e = (plainRecord e.2).map (Prod.mk e.1) := by
  rw [plainEntry, plainField, h]

/-- The two conditions of a copy. -/
structure Copies (v : Record) : Prop where
  exact : ∀ field w, Holds v field w → ∃ id, Exact w id
  supported : ∀ type, ¬Reaches v (.other type)

variable {v : Record}

theorem copies_items (hentries : v.entries = []) (hother : ∀ type, v ≠ .other type) :
    Copies v ↔ ∀ x ∈ v.items, Copies x := by
  constructor
  · rintro ⟨hexact, hsupported⟩ x hx
    refine ⟨fun field w => ?_, fun type hin => hsupported type (.item hx hin)⟩
    rintro ⟨u, hu, he⟩
    exact hexact field w ⟨u, .item hx hu, he⟩
  · intro h
    refine ⟨fun field w => ?_, fun type hin => ?_⟩
    · rintro ⟨u, hu, e, he, hfield⟩
      cases hu with
      | self =>
          rw [hentries] at he
          cases he
      | entry he' =>
          rw [hentries] at he'
          cases he'
      | item hx hin => exact (h _ hx).exact field w ⟨u, hin, e, he, hfield⟩
    · cases hin with
      | self => exact hother type rfl
      | entry he' =>
          rw [hentries] at he'
          cases he'
      | item hx hin => exact (h _ hx).supported type hin

theorem copies_entries (hitems : v.items = []) (hother : ∀ type, v ≠ .other type) :
    Copies v ↔ ∀ e ∈ v.entries, match e.1.identifier with
      | some _ => ∃ id, Exact e.2 id
      | none => Copies e.2 := by
  constructor
  · rintro ⟨hexact, hsupported⟩ e he
    cases hkey : e.1.identifier with
    | some field => exact hexact field e.2 ⟨v, .self, e, he, hkey, rfl⟩
    | none =>
        refine ⟨fun field w => ?_, fun type hin => hsupported type (.entry he hkey hin)⟩
        rintro ⟨u, hu, hheld⟩
        exact hexact field w ⟨u, .entry he hkey hu, hheld⟩
  · intro h
    refine ⟨fun field w => ?_, fun type hin => ?_⟩
    · rintro ⟨u, hu, e, he, hfield, rfl⟩
      cases hu with
      | self =>
          have hentry := h e he
          rwa [hfield] at hentry
      | entry he' hkey hin =>
          have hentry := h _ he'
          rw [hkey] at hentry
          exact hentry.exact field e.2 ⟨u, hin, e, he, hfield, rfl⟩
      | item hx =>
          rw [hitems] at hx
          cases hx
    · cases hin with
      | self => exact hother type rfl
      | entry he' hkey hin =>
          have hentry := h _ he'
          rw [hkey] at hentry
          exact hentry.supported type hin
      | item hx =>
          rw [hitems] at hx
          cases hx

theorem copies_scalar (hentries : v.entries = []) (hitems : v.items = []) (hother : ∀ type, v ≠ .other type) : Copies v := by
  refine (copies_items hentries hother).mpr ?_
  rw [hitems]
  exact fun x hx => absurd hx List.not_mem_nil

/-- A mapping is copied where each of its fields is. -/
theorem plain_entries_ok (hplain : plainRecord v = (v.entries.mapM plainEntry).map .dict) (hitems : v.items = [])
    (hother : ∀ type, v ≠ .other type) (ih : ∀ e ∈ v.entries, (∃ r, plainRecord e.2 = .ok r) ↔ Copies e.2) :
    (∃ r, plainRecord v = .ok r) ↔ Copies v := by
  rw [hplain, Checks.exists_map_ok, Checks.exists_mapM_ok, copies_entries hitems hother]
  refine forall₂_congr (fun e he => ?_)
  cases hkey : e.1.identifier with
  | some field =>
      rw [plainEntry_identifier hkey, Checks.exists_map_ok, Checks.exists_map_ok]
      exact exists_congr (fun id => exactIdentifier_ok)
  | none =>
      rw [plainEntry_other hkey, Checks.exists_map_ok]
      exact ih e he

theorem plain_ok (v : Record) : (∃ r, plainRecord v = .ok r) ↔ Copies v := by
  induction v using Record.nested with
  | list items ih =>
      rw [plain_list, Checks.exists_map_ok, Checks.exists_mapM_ok, copies_items (v := .list items) rfl (fun _ => nofun)]
      exact forall₂_congr ih
  | tuple items ih =>
      rw [plain_tuple, Checks.exists_map_ok, Checks.exists_mapM_ok, copies_items (v := .tuple items) rfl (fun _ => nofun)]
      exact forall₂_congr ih
  | dict entries ih => exact plain_entries_ok (plain_dict entries) rfl (fun _ => nofun) ih
  | leg attr ih =>
      refine plain_entries_ok ((plain_leg attr).trans (plain_dict _)) rfl (fun _ => nofun) (fun e he => ?_)
      obtain ⟨name, -, rfl⟩ := List.mem_map.mp he
      exact ih name
  | other type => exact iff_of_false nofun (fun h => h.supported type .self)
  | real x => cases x <;> exact iff_of_true ⟨_, rfl⟩ (copies_scalar rfl rfl (fun _ => nofun))
  | _ => exact iff_of_true ⟨_, rfl⟩ (copies_scalar rfl rfl (fun _ => nofun))

/-- An entry keeps its key. An identifier is written out, every other value is copied. -/
inductive CopyEntry (C : Record → Data → Prop) : Key × Record → Key × Data → Prop
  | identifier {key field v id} (h : key.identifier = some field) (hid : Exact v id) : CopyEntry C (key, v) (key, identifierData id)
  | other {key v w} (h : key.identifier = none) (hc : C v w) : CopyEntry C (key, v) (key, w)

/-- The copy of a record: the same structure with tuples as lists and legs as dictionaries,
every identifier with its exact text, and null for a number that is unavailable. -/
inductive Copy : Record → Data → Prop
  | null : Copy .null .null
  | bool (b : Bool) : Copy (.bool b) (.bool b)
  | int (z : ℤ) : Copy (.int z) (.int z)
  | real (d : Decimal) : Copy (.real (.finite d)) (.float (.finite d))
  | unavailable {x} (h : ∀ d, x ≠ .finite d) : Copy (.real x) .null
  | text (s : String) : Copy (.text s) (.text s)
  | date (iso : String) : Copy (.date iso) (.text iso)
  | list {xs ys} (h : List.Forall₂ Copy xs ys) : Copy (.list xs) (.list ys)
  | tuple {xs ys} (h : List.Forall₂ Copy xs ys) : Copy (.tuple xs) (.list ys)
  | dict {es fs} (h : List.Forall₂ (CopyEntry Copy) es fs) : Copy (.dict es) (.dict fs)
  | leg {attr fs} (h : List.Forall₂ (CopyEntry Copy) (attrs attr) fs) : Copy (.leg attr) (.dict fs)

theorem copyEntry_of_ok {e : Key × Record} {f : Key × Data} (h : plainEntry e = .ok f)
    (ih : ∀ r, plainRecord e.2 = .ok r → Copy e.2 r) : CopyEntry Copy e f := by
  cases hkey : e.1.identifier with
  | some field =>
      rw [plainEntry_identifier hkey] at h
      obtain ⟨w, hw, rfl⟩ := Checks.map_ok.mp h
      obtain ⟨id, hid, rfl⟩ := Checks.map_ok.mp hw
      exact .identifier hkey (exactIdentifier_ok.mp hid)
  | none =>
      rw [plainEntry_other hkey] at h
      obtain ⟨w, hw, rfl⟩ := Checks.map_ok.mp h
      exact .other hkey (ih w hw)

theorem copy_entries {entries : List (Key × Record)} {fs : List (Key × Data)} (h : entries.mapM plainEntry = .ok fs)
    (ih : ∀ e ∈ entries, ∀ r, plainRecord e.2 = .ok r → Copy e.2 r) : List.Forall₂ (CopyEntry Copy) entries fs :=
  Checks.forall₂_imp_mem (Checks.mapM_ok.mp h) (fun e he _ hf => copyEntry_of_ok hf (ih e he))

theorem copy_of_ok {r : Data} (h : plainRecord v = .ok r) : Copy v r := by
  induction v using Record.nested generalizing r with
  | list items ih =>
      rw [plain_list] at h
      obtain ⟨ys, hys, rfl⟩ := Checks.map_ok.mp h
      exact .list (Checks.forall₂_imp_mem (Checks.mapM_ok.mp hys) (fun x hx _ hy => ih x hx hy))
  | tuple items ih =>
      rw [plain_tuple] at h
      obtain ⟨ys, hys, rfl⟩ := Checks.map_ok.mp h
      exact .tuple (Checks.forall₂_imp_mem (Checks.mapM_ok.mp hys) (fun x hx _ hy => ih x hx hy))
  | dict entries ih =>
      rw [plain_dict] at h
      obtain ⟨fs, hfs, rfl⟩ := Checks.map_ok.mp h
      exact .dict (copy_entries hfs (fun e he _ hr => ih e he hr))
  | leg attr ih =>
      rw [plain_leg, plain_dict] at h
      obtain ⟨fs, hfs, rfl⟩ := Checks.map_ok.mp h
      refine .leg (copy_entries hfs (fun e he _ hr => ?_))
      obtain ⟨name, -, rfl⟩ := List.mem_map.mp he
      exact ih name hr
  | null => cases h; exact .null
  | bool b => cases h; exact .bool b
  | int z => cases h; exact .int z
  | text s => cases h; exact .text s
  | date iso => cases h; exact .date iso
  | other type => cases h
  | real x =>
      cases x with
      | finite d => cases h; exact .real d
      | nan => cases h; exact .unavailable nofun
      | infinite negative => cases h; exact .unavailable nofun

/-- JSON has every part of the value: no number without a value, and no type of its own. -/
inductive Plain : Data → Prop
  | null : Plain .null
  | bool (b : Bool) : Plain (.bool b)
  | int (z : ℤ) : Plain (.int z)
  | float (d : Decimal) : Plain (.float (.finite d))
  | text (s : String) : Plain (.text s)
  | list {items} (h : ∀ x ∈ items, Plain x) : Plain (.list items)
  | dict {entries : List (Key × Data)} (h : ∀ e ∈ entries, Plain e.2) : Plain (.dict entries)

theorem plain_identifier (id : Option String) : Plain (identifierData id) := by
  cases id with
  | none => exact .null
  | some s => exact .text s

variable (repr : Data → String)

/-- What the response boundary passes on as it is. -/
def Final (r : Data) : Prop := Plain r ∧ Serialization.serializeIdentifiers repr r = .ok r

variable {repr}

theorem serialize_identifier (id : Option String) (field : String) :
    Serialization.serializeIdentifier repr field (identifierData id) = .ok (identifierData id) := by
  cases id <;> rfl

theorem final_list {ys : List Data} (h : ∀ y ∈ ys, Final repr y) : Final repr (.list ys) := by
  refine ⟨.list (fun y hy => (h y hy).1), ?_⟩
  rw [Serialization.serialize_list, Checks.mapM_ok.mpr (List.forall₂_same.mpr (fun y hy => (h y hy).2))]
  rfl

theorem final_entry {f : Key × Data} (hid : ∀ field, f.1.identifier = some field → ∃ id, f.2 = identifierData id)
    (hother : f.1.identifier = none → Final repr f.2) : Plain f.2 ∧ Serialization.serializeEntry repr f = .ok f := by
  cases hkey : f.1.identifier with
  | some field =>
      obtain ⟨id, hf⟩ := hid field hkey
      rw [Serialization.serializeEntry_identifier repr hkey, hf, serialize_identifier]
      exact ⟨plain_identifier id, congrArg Except.ok (Prod.ext rfl hf.symm)⟩
  | none =>
      obtain ⟨hplain, hserialized⟩ := hother hkey
      rw [Serialization.serializeEntry_other repr hkey, hserialized]
      exact ⟨hplain, rfl⟩

theorem final_dict {fs : List (Key × Data)} (h : ∀ f ∈ fs, Plain f.2 ∧ Serialization.serializeEntry repr f = .ok f) :
    Final repr (.dict fs) := by
  refine ⟨.dict (fun f hf => (h f hf).1), ?_⟩
  rw [Serialization.serialize_dict, Checks.mapM_ok.mpr (List.forall₂_same.mpr (fun f hf => (h f hf).2))]
  rfl

theorem final_items {items : List Record} {ys : List Data} (h : items.mapM plainRecord = .ok ys)
    (ih : ∀ x ∈ items, ∀ r, plainRecord x = .ok r → Final repr r) : ∀ y ∈ ys, Final repr y := by
  intro y hy
  obtain ⟨x, hx, hxy⟩ := Checks.forall₂_mem (Checks.mapM_ok.mp h).flip y hy
  exact ih x hx y hxy

theorem final_entries {entries : List (Key × Record)} {fs : List (Key × Data)} (h : entries.mapM plainEntry = .ok fs)
    (ih : ∀ e ∈ entries, ∀ r, plainRecord e.2 = .ok r → Final repr r) :
    ∀ f ∈ fs, Plain f.2 ∧ Serialization.serializeEntry repr f = .ok f := by
  intro f hf
  obtain ⟨e, he, hentry⟩ := Checks.forall₂_mem (Checks.mapM_ok.mp h).flip f hf
  apply final_entry
  · intro field hkey
    cases copyEntry_of_ok hentry (fun r hr => copy_of_ok hr) with
    | identifier _ _ => exact ⟨_, rfl⟩
    | other hnone _ =>
        rw [hnone] at hkey
        cases hkey
  · intro hnone
    cases hkey : e.1.identifier with
    | some field =>
        rw [plainEntry_identifier hkey] at hentry
        obtain ⟨w, -, rfl⟩ := Checks.map_ok.mp hentry
        cases hkey.symm.trans hnone
    | none =>
        rw [plainEntry_other hkey] at hentry
        obtain ⟨w, hw, rfl⟩ := Checks.map_ok.mp hentry
        exact ih e he w hw

theorem final_of_ok {r : Data} (h : plainRecord v = .ok r) : Final repr r := by
  induction v using Record.nested generalizing r with
  | list items ih =>
      rw [plain_list] at h
      obtain ⟨ys, hys, rfl⟩ := Checks.map_ok.mp h
      exact final_list (final_items hys (fun x hx _ hr => ih x hx hr))
  | tuple items ih =>
      rw [plain_tuple] at h
      obtain ⟨ys, hys, rfl⟩ := Checks.map_ok.mp h
      exact final_list (final_items hys (fun x hx _ hr => ih x hx hr))
  | dict entries ih =>
      rw [plain_dict] at h
      obtain ⟨fs, hfs, rfl⟩ := Checks.map_ok.mp h
      exact final_dict (final_entries hfs (fun e he _ hr => ih e he hr))
  | leg attr ih =>
      rw [plain_leg, plain_dict] at h
      obtain ⟨fs, hfs, rfl⟩ := Checks.map_ok.mp h
      refine final_dict (final_entries hfs (fun e he _ hr => ?_))
      obtain ⟨name, -, rfl⟩ := List.mem_map.mp he
      exact ih name hr
  | null => cases h; exact ⟨.null, rfl⟩
  | bool b => cases h; exact ⟨.bool b, rfl⟩
  | int z => cases h; exact ⟨.int z, rfl⟩
  | text s => cases h; exact ⟨.text s, rfl⟩
  | date iso => cases h; exact ⟨.text iso, rfl⟩
  | other type => cases h
  | real x =>
      cases x with
      | finite d => cases h; exact ⟨.float d, rfl⟩
      | nan => cases h; exact ⟨.null, rfl⟩
      | infinite negative => cases h; exact ⟨.null, rfl⟩

/-- The copy of an SDK record is exact at every depth. It is refused exactly for an
identifier that is boolean, fractional, of a further type or too long to be written, or for
a value of a type that JSON does not have; what it is otherwise keeps the structure and the
exact text of every identifier, holds no number without a value, and passes the response
boundary unchanged. -/
theorem plainRecord_exact (v : Record) :
    ((∃ r, plainRecord v = .ok r) ↔
      (∀ field w, Holds v field w → ∃ id, Exact w id) ∧ ∀ type, ¬Reaches v (.other type)) ∧
    ∀ r, plainRecord v = .ok r →
      Copy v r ∧ Plain r ∧ ∀ repr, Serialization.serializeIdentifiers repr r = .ok r := by
  refine ⟨(plain_ok v).trans ⟨fun h => ⟨h.exact, h.supported⟩, fun h => ⟨h.1, h.2⟩⟩, fun r hr => ⟨copy_of_ok hr, ?_, fun repr => ?_⟩⟩
  · have hfinal : Final (fun _ => "") r := final_of_ok hr
    exact hfinal.1
  · exact (final_of_ok hr).2

end MoomooMcp.QueryContracts
