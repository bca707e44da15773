import MoomooMcp.CanonicalNumbers
import MoomooMcp.Checks

namespace MoomooMcp.Serialization

/-- Identifiers only. Quantities, prices and balances stay numeric. -/
def identifierFields : List String := ["acc_id", "position_id", "combo_id", "deal_id", "order_id"]

inductive FloatValue
  | nan
  | infinite (negative : Bool)
  | finite (d : Decimal)

/-- A key of a dictionary. What is not a text is known by how it is written. -/
inductive Key
  | text (s : String)
  | other (shown : String)
  deriving DecidableEq

/-- A structure as a service returns it. `int` is any integral number, and `other` any
scalar of a further type. -/
inductive Data
  | null
  | bool (b : Bool)
  | int (z : ℤ)
  | float (x : FloatValue)
  | text (s : String)
  | other (type shown : String)
  | list (items : List Data)
  | tuple (items : List Data)
  | dict (entries : List (Key × Data))

def Key.identifier : Key → Option String
  | .text s => if s ∈ identifierFields then some s else none
  | .other _ => none

def Data.typeName : Data → String
  | .null => "NoneType"
  | .bool _ => "bool"
  | .int _ => "int"
  | .float _ => "float"
  | .text _ => "str"
  | .other type _ => type
  | .list _ => "list"
  | .tuple _ => "tuple"
  | .dict _ => "dict"

/-- What is raised: the refusal of an identifier, or the error of the conversion of an integer. -/
inductive Raised
  | identifierSerializationError (message : String)
  | valueError (message : String)

/-- `str(value)` of an integer. -/
def str (z : ℤ) : Except Raised String :=
  if 4300 < Decimal.digits z.natAbs then
    .error (.valueError ("Exceeds the limit (4300 digits) for integer string conversion; " ++
      "use sys.set_int_max_str_digits() to increase the limit"))
  else .ok (toString z)

variable (repr : Data → String)

/-- Convert one identifier value, or refuse it. -/
def serializeIdentifier (field : String) : Data → Except Raised Data
  | .null => .ok .null
  | .bool b =>
      .error (.identifierSerializationError ("Field '" ++ field ++ "' has a boolean value " ++ repr (.bool b) ++
        ". Identifiers must be exact integers or decimal strings."))
  | .int z => (str z).map .text
  | .text s => .ok (.text s)
  | .float .nan => .ok .null
  | .float x =>
      .error (.identifierSerializationError ("Field '" ++ field ++ "' has a floating-point value " ++ repr (.float x) ++
        ". A float cannot represent a 64-bit identifier exactly, so the precision is already lost; " ++
        "emitting it as an id would hide that. Fetch the identifier again from a tool that returns it as " ++
        "a decimal string."))
  | value =>
      .error (.identifierSerializationError ("Field '" ++ field ++ "' has an unsupported value of type " ++
        value.typeName ++ ": " ++ repr value ++ ". Identifiers must be exact integers or decimal strings."))

mutual

def serializeIdentifiers : Data → Except Raised Data
  | .dict entries => do return .dict (← serializeEntries entries)
  | .list items => do return .list (← serializeItems items)
  | .tuple items => do return .list (← serializeItems items)
  | payload => .ok payload

def serializeItems : List Data → Except Raised (List Data)
  | [] => .ok []
  | item :: items => do
      let item ← serializeIdentifiers item
      return item :: (← serializeItems items)

def serializeEntries : List (Key × Data) → Except Raised (List (Key × Data))
  | [] => .ok []
  | (key, value) :: entries => do
      let value ← (match key.identifier with
        | some field => serializeIdentifier repr field value
        | none => serializeIdentifiers value)
      return (key, value) :: (← serializeEntries entries)

end

/-- One entry of a dictionary: an identifier is converted, everything else descended into. -/
def serializeEntry (e : Key × Data) : Except Raised (Key × Data) := do
  let value ← (match e.1.identifier with
    | some field => serializeIdentifier repr field e.2
    | none => serializeIdentifiers repr e.2)
  return (e.1, value)

theorem serializeItems_eq (items : List Data) : serializeItems repr items = items.mapM (serializeIdentifiers repr) := by
  induction items with
  | nil => rw [serializeItems, List.mapM_nil]; rfl
  | cons item items ih => rw [serializeItems, List.mapM_cons, ih]

theorem serializeEntries_eq (entries : List (Key × Data)) :
    serializeEntries repr entries = entries.mapM (serializeEntry repr) := by
  induction entries with
  | nil => rw [serializeEntries, List.mapM_nil]; rfl
  | cons e entries ih =>
      obtain ⟨key, value⟩ := e
      rw [serializeEntries, List.mapM_cons, ih, serializeEntry]
      dsimp only
      rw [bind_assoc]
      rfl

/-- The induction on the nesting. -/
theorem Data.nested {P : Data → Prop} (null : P .null) (bool : ∀ b, P (.bool b)) (int : ∀ z, P (.int z))
    (float : ∀ x, P (.float x)) (text : ∀ s, P (.text s)) (other : ∀ type shown, P (.other type shown))
    (list : ∀ items, (∀ x ∈ items, P x) → P (.list items)) (tuple : ∀ items, (∀ x ∈ items, P x) → P (.tuple items))
    (dict : ∀ entries, (∀ e ∈ entries, P e.2) → P (.dict entries)) (payload : Data) : P payload :=
  payload.rec null bool int float text other list tuple dict
    (fun _ hx => absurd hx List.not_mem_nil)
    (fun _ _ hitem hitems => List.forall_mem_cons.mpr ⟨hitem, hitems⟩)
    (fun _ he => absurd he List.not_mem_nil)
    (fun _ _ hentry hentries => List.forall_mem_cons.mpr ⟨hentry, hentries⟩)
    (fun _ _ hvalue => hvalue)

theorem serialize_list (items : List Data) :
    serializeIdentifiers repr (.list items) = (items.mapM (serializeIdentifiers repr)).map .list := by
  rw [serializeIdentifiers, Checks.bind_pure_map, serializeItems_eq]

theorem serialize_tuple (items : List Data) :
    serializeIdentifiers repr (.tuple items) = (items.mapM (serializeIdentifiers repr)).map .list := by
  rw [serializeIdentifiers, Checks.bind_pure_map, serializeItems_eq]

theorem serialize_dict (entries : List (Key × Data)) :
    serializeIdentifiers repr (.dict entries) = (entries.mapM (serializeEntry repr)).map .dict := by
  rw [serializeIdentifiers, Checks.bind_pure_map, serializeEntries_eq]

theorem serializeEntry_identifier {e : Key × Data} {field : String} (h : e.1.identifier = some field) :
    serializeEntry repr e = (serializeIdentifier repr field e.2).map (Prod.mk e.1) := by
  rw [serializeEntry, Checks.bind_pure_map, h]

theorem serializeEntry_other {e : Key × Data} (h : e.1.identifier = none) :
    serializeEntry repr e = (serializeIdentifiers repr e.2).map (Prod.mk e.1) := by
  rw [serializeEntry, Checks.bind_pure_map, h]

/-- Some dictionary, at a depth that is descended to, has the value under the field of an identifier. -/
inductive Holds : Data → String → Data → Prop
  | here {entries e field} (he : e ∈ entries) (h : e.1.identifier = some field) : Holds (.dict entries) field e.2
  | entry {entries e field value} (he : e ∈ entries) (h : e.1.identifier = none) (hin : Holds e.2 field value) :
      Holds (.dict entries) field value
  | item {items x field value} (hx : x ∈ items) (hin : Holds x field value) : Holds (.list items) field value
  | member {items x field value} (hx : x ∈ items) (hin : Holds x field value) : Holds (.tuple items) field value

/-- The value is an integer, a string, null or not a number. -/
def Fit : Data → Prop
  | .null | .int _ | .text _ | .float .nan => True
  | _ => False

/-- The value is an integer that is too long to be written out. -/
def Long : Data → Prop
  | .int z => 4300 < Decimal.digits z.natAbs
  | _ => False

theorem serializeIdentifier_ok {field : String} {value : Data} :
    (∃ w, serializeIdentifier repr field value = .ok w) ↔ Fit value ∧ ¬ Long value := by
  cases value with
  | int z =>
      rw [serializeIdentifier, Checks.exists_map_ok, str]
      by_cases hlong : 4300 < Decimal.digits z.natAbs <;> simp [hlong, Fit, Long]
  | float x => cases x <;> simp [serializeIdentifier, Fit, Long]
  | _ => simp [serializeIdentifier, Fit, Long]

/-- A structure is serialised where every identifier that it holds is. -/
theorem returns_iff (payload : Data) : (∃ r, serializeIdentifiers repr payload = .ok r) ↔
    ∀ field value, Holds payload field value → ∃ w, serializeIdentifier repr field value = .ok w := by
  induction payload using Data.nested with
  | list items ih =>
      rw [serialize_list, Checks.exists_map_ok, Checks.exists_mapM_ok]
      constructor
      · rintro h field value (_ | _ | ⟨hx, hin⟩)
        exact (ih _ hx).mp (h _ hx) field value hin
      · exact fun h x hx => (ih x hx).mpr (fun field value hin => h field value (.item hx hin))
  | tuple items ih =>
      rw [serialize_tuple, Checks.exists_map_ok, Checks.exists_mapM_ok]
      constructor
      · rintro h field value (_ | _ | _ | ⟨hx, hin⟩)
        exact (ih _ hx).mp (h _ hx) field value hin
      · exact fun h x hx => (ih x hx).mpr (fun field value hin => h field value (.member hx hin))
  | dict entries ih =>
      rw [serialize_dict, Checks.exists_map_ok, Checks.exists_mapM_ok]
      constructor
      · rintro h field value (⟨he, hkey⟩ | ⟨he, hkey, hin⟩)
        · obtain hentry := h _ he
          rwa [serializeEntry_identifier repr hkey, Checks.exists_map_ok] at hentry
        · obtain hentry := h _ he
          rw [serializeEntry_other repr hkey, Checks.exists_map_ok] at hentry
          exact (ih _ he).mp hentry field value hin
      · intro h e he
        cases hkey : e.1.identifier with
        | none =>
            rw [serializeEntry_other repr hkey, Checks.exists_map_ok]
            exact (ih e he).mpr (fun field value hin => h field value (.entry he hkey hin))
        | some field =>
            rw [serializeEntry_identifier repr hkey, Checks.exists_map_ok]
            exact h field e.2 (.here he hkey)
  | _ => exact iff_of_true ⟨_, rfl⟩ nofun

theorem raises_iff (payload : Data) : (∃ e, serializeIdentifiers repr payload = .error e) ↔
    ∃ field value, Holds payload field value ∧ (¬ Fit value ∨ Long value) := by
  have hreturns := returns_iff repr payload
  simp only [serializeIdentifier_ok] at hreturns
  have hraises : (∃ e, serializeIdentifiers repr payload = .error e) ↔
      ¬ ∃ r, serializeIdentifiers repr payload = .ok r := by
    cases serializeIdentifiers repr payload <;> simp
  rw [hraises, hreturns]
  push Not
  simp only [imp_iff_not_or]

/-- The value of an identifier field and what becomes of it. -/
inductive Identified : Data → Data → Prop
  | null : Identified .null .null
  | nan : Identified (.float .nan) .null
  | int (z : ℤ) : Identified (.int z) (.text (toString z))
  | text (s : String) : Identified (.text s) (.text s)

def Data.isScalar : Data → Bool
  | .list _ | .tuple _ | .dict _ => false
  | _ => true

/-- An entry keeps its key. An identifier is converted, every other value is serialised. -/
inductive SerializedEntry (S : Data → Data → Prop) : Key × Data → Key × Data → Prop
  | identifier {key field v w} (h : key.identifier = some field) (hid : Identified v w) : SerializedEntry S (key, v) (key, w)
  | other {key v w} (h : key.identifier = none) (hs : S v w) : SerializedEntry S (key, v) (key, w)

/-- The same structure, with tuples as lists, every identifier converted and every other scalar unchanged. -/
inductive Serialized : Data → Data → Prop
  | scalar {p} (h : p.isScalar = true) : Serialized p p
  | list {xs ys} (h : List.Forall₂ Serialized xs ys) : Serialized (.list xs) (.list ys)
  | tuple {xs ys} (h : List.Forall₂ Serialized xs ys) : Serialized (.tuple xs) (.list ys)
  | dict {es fs} (h : List.Forall₂ (SerializedEntry Serialized) es fs) : Serialized (.dict es) (.dict fs)

variable {repr}

theorem str_ok {z : ℤ} {t : String} (h : str z = .ok t) : t = toString z := by
  rw [str] at h
  split at h
  · cases h
  · exact (Except.ok.inj h).symm

theorem identified_of_ok {field : String} {v w : Data} (h : serializeIdentifier repr field v = .ok w) : Identified v w := by
  cases v with
  | null => cases h; exact .null
  | int z =>
      obtain ⟨t, ht, rfl⟩ := Checks.map_ok.mp h
      exact str_ok ht ▸ .int z
  | text s => cases h; exact .text s
  | float x =>
      cases x with
      | nan => cases h; exact .nan
      | infinite => cases h
      | finite => cases h
  | _ => cases h

/-- What an identifier has become is left as it is. -/
theorem Identified.stable {v w : Data} (h : Identified v w) (field : String) : serializeIdentifier repr field w = .ok w := by
  cases h <;> rfl

theorem serializedEntry_of_ok {e f : Key × Data} (h : serializeEntry repr e = .ok f)
    (ih : ∀ r, serializeIdentifiers repr e.2 = .ok r → Serialized e.2 r) : SerializedEntry Serialized e f := by
  cases hkey : e.1.identifier with
  | some field =>
      rw [serializeEntry_identifier repr hkey] at h
      obtain ⟨w, hw, rfl⟩ := Checks.map_ok.mp h
      exact .identifier hkey (identified_of_ok hw)
  | none =>
      rw [serializeEntry_other repr hkey] at h
      obtain ⟨w, hw, rfl⟩ := Checks.map_ok.mp h
      exact .other hkey (ih w hw)

theorem serialized_of_ok {payload r : Data} (h : serializeIdentifiers repr payload = .ok r) : Serialized payload r := by
  induction payload using Data.nested generalizing r with
  | list items ih =>
      rw [serialize_list] at h
      obtain ⟨ys, hys, rfl⟩ := Checks.map_ok.mp h
      exact .list (Checks.forall₂_imp_mem (Checks.mapM_ok.mp hys) (fun x hx _ hy => ih x hx hy))
  | tuple items ih =>
      rw [serialize_tuple] at h
      obtain ⟨ys, hys, rfl⟩ := Checks.map_ok.mp h
      exact .tuple (Checks.forall₂_imp_mem (Checks.mapM_ok.mp hys) (fun x hx _ hy => ih x hx hy))
  | dict entries ih =>
      rw [serialize_dict] at h
      obtain ⟨fs, hfs, rfl⟩ := Checks.map_ok.mp h
      exact .dict (Checks.forall₂_imp_mem (Checks.mapM_ok.mp hfs) (fun e he _ hf => serializedEntry_of_ok hf (fun _ hr => ih e he hr)))
  | _ => cases h; exact .scalar rfl

theorem entry_stable {e f : Key × Data} (h : serializeEntry repr e = .ok f)
    (ih : ∀ r, serializeIdentifiers repr e.2 = .ok r → serializeIdentifiers repr r = .ok r) :
    serializeEntry repr f = .ok f := by
  cases hkey : e.1.identifier with
  | some field =>
      rw [serializeEntry_identifier repr hkey] at h
      obtain ⟨w, hw, rfl⟩ := Checks.map_ok.mp h
      rw [serializeEntry_identifier repr (e := (e.1, w)) hkey, (identified_of_ok hw).stable]
      rfl
  | none =>
      rw [serializeEntry_other repr hkey] at h
      obtain ⟨w, hw, rfl⟩ := Checks.map_ok.mp h
      rw [serializeEntry_other repr (e := (e.1, w)) hkey, ih w hw]
      rfl

/-- A list that is serialised to itself, element by element. -/
theorem mapM_stable {α β : Type} {f : α → Except Raised β} {g : β → Except Raised β} {xs : List α} {ys : List β}
    (h : xs.mapM f = .ok ys) (hstable : ∀ x ∈ xs, ∀ y, f x = .ok y → g y = .ok y) : ys.mapM g = .ok ys := by
  refine Checks.mapM_ok.mpr (List.forall₂_same.mpr (fun y hy => ?_))
  obtain ⟨x, hx, hxy⟩ := Checks.forall₂_mem (Checks.mapM_ok.mp h).flip y hy
  exact hstable x hx y hxy

theorem stable_of_ok {payload r : Data} (h : serializeIdentifiers repr payload = .ok r) :
    serializeIdentifiers repr r = .ok r := by
  induction payload using Data.nested generalizing r with
  | list items ih =>
      rw [serialize_list] at h
      obtain ⟨ys, hys, rfl⟩ := Checks.map_ok.mp h
      rw [serialize_list, mapM_stable hys (fun x hx _ hy => ih x hx hy)]
      rfl
  | tuple items ih =>
      rw [serialize_tuple] at h
      obtain ⟨ys, hys, rfl⟩ := Checks.map_ok.mp h
      rw [serialize_list, mapM_stable hys (fun x hx _ hy => ih x hx hy)]
      rfl
  | dict entries ih =>
      rw [serialize_dict] at h
      obtain ⟨fs, hfs, rfl⟩ := Checks.map_ok.mp h
      rw [serialize_dict, mapM_stable hfs (fun e he _ hf => entry_stable hf (fun _ hr => ih e he hr))]
      rfl
  | _ => cases h; rfl

/-- The text of an integer denotes that integer alone. -/
theorem toString_int_inj {a b : ℤ} (h : toString a = toString b) : a = b := by
  have hdigit : ∀ n m : ℕ, n.repr ≠ "-" ++ m.repr := by
    intro n m heq
    have hmem : '-' ∈ Nat.toDigits 10 n := by
      rw [← Nat.toList_repr, heq]
      simp
    have hminus := Nat.isDigit_of_mem_toDigits (by decide) (by decide) hmem
    exact absurd hminus (by decide)
  cases a with
  | ofNat n =>
      cases b with
      | ofNat m => exact congrArg Int.ofNat (repr_eq_iff.mp h)
      | negSucc m => exact absurd h (hdigit n (m + 1))
  | negSucc n =>
      cases b with
      | ofNat m => exact absurd h.symm (hdigit m (n + 1))
      | negSucc m =>
          have hrepr : (n + 1).repr = (m + 1).repr := by
            have hsigned : "-" ++ (n + 1).repr = "-" ++ (m + 1).repr := h
            exact String.toList_inj.mp (by simpa using congrArg String.toList hsigned)
          have hsucc := repr_eq_iff.mp hrepr
          exact congrArg Int.negSucc (Nat.succ.inj hsucc)

/-- Serialisation is refused exactly where an identifier is unfit, or an integer too long to
be written. Otherwise it keeps the structure, converts every identifier exactly, changes
nothing when it is applied again, and never takes two integers to one text. -/
theorem identifiers_exact (repr : Data → String) (payload : Data) :
    ((∃ e, serializeIdentifiers repr payload = .error e) ↔
      ∃ field value, Holds payload field value ∧ (¬ Fit value ∨ Long value)) ∧
    (∀ r, serializeIdentifiers repr payload = .ok r → Serialized payload r ∧ serializeIdentifiers repr r = .ok r) ∧
    (∀ field field' a b text, serializeIdentifier repr field (.int a) = .ok text →
      serializeIdentifier repr field' (.int b) = .ok text → a = b) := by
  refine ⟨raises_iff repr payload, fun r h => ⟨serialized_of_ok h, stable_of_ok h⟩, ?_⟩
  intro field field' a b text ha hb
  obtain ⟨s, hs, rfl⟩ := Checks.map_ok.mp ha
  obtain ⟨t, ht, heq⟩ := Checks.map_ok.mp hb
  have hst : t = s := Data.text.inj heq
  exact toString_int_inj ((str_ok hs).symm.trans (hst ▸ str_ok ht))

theorem digits_pow (n : ℕ) : Decimal.digits ((10 : ℤ) ^ n).natAbs = n + 1 := by
  have hten : (10 : ℤ).natAbs = 10 := rfl
  rw [Int.natAbs_pow, Decimal.digits, hten, Nat.log_pow (by norm_num)]

/-- An account identifier of 4301 digits. -/
def longIdentifier : Data := .dict [(.text "acc_id", .int (10 ^ 4300))]

theorem long_identifier_raises : ¬ ∀ (repr : Data → String) (payload : Data),
    (∃ e, serializeIdentifiers repr payload = .error e) ↔ ∃ field value, Holds payload field value ∧ ¬ Fit value := by
  intro hall
  have hlong : Long (.int (10 ^ 4300)) := by
    rw [Long, digits_pow]
    omega
  have hidentifier : (Key.text "acc_id").identifier = some "acc_id" := by decide
  have hholds : Holds longIdentifier "acc_id" (.int (10 ^ 4300)) := .here (List.mem_singleton.mpr rfl) hidentifier
  have hraises := (raises_iff Data.typeName longIdentifier).mpr ⟨_, _, hholds, .inr hlong⟩
  obtain ⟨field, value, hin, hunfit⟩ := (hall Data.typeName longIdentifier).mp hraises
  cases hin with
  | here he =>
      obtain rfl := List.mem_singleton.mp he
      exact hunfit trivial
  | entry he hnone =>
      obtain rfl := List.mem_singleton.mp he
      rw [hidentifier] at hnone
      cases hnone

end MoomooMcp.Serialization
