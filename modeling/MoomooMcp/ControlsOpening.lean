import MoomooMcp.CrashPoints
import MoomooMcp.TradingControls

namespace MoomooMcp.TradingControls

open CrashPoints Durable

/-- A file of the controls, with the tables that were created in it so far. -/
structure File where
  metadata : Option (List ℕ)
  prepared : Option (Table Prepared.requestId)
  charges : Option (Table Charge.key)
  dailyCharge : Bool
  executionPauses : Option (Table Pause.scope)

/-- What creating the file leaves. -/
def File.blank : File := ⟨none, none, none, false, none⟩

def File.complete : File := ⟨some [1], some .empty, some .empty, true, some .empty⟩

/-- The tables as an open store uses them, where none of them is missing. -/
def File.database (f : File) : Option Database := do
  return ⟨← f.prepared, ← f.charges, ← f.executionPauses⟩

/-- The statements of the schema script. No transaction encloses them, so that each of them commits by itself. -/
def script : List (File → File) :=
  [fun f => { f with metadata := some [] },
    fun f => { f with metadata := f.metadata.map (fun versions => versions ++ [1]) },
    fun f => { f with prepared := some .empty },
    fun f => { f with charges := some .empty },
    fun f => { f with dailyCharge := true }]

def executescript : List (File → File) → File → Durable (Option File) Exc File
  | [], f => return f
  | statement :: rest, f => do
      write (some (statement f))
      executescript rest (statement f)

def unavailable : Exc := controlError "Trading controls storage is unavailable"

/-- What every opening checks, and the table that older files lack. -/
def openFile (f : File) : Durable (Option File) Exc Store :=
  match f.metadata with
  | none => fail unavailable
  | some versions =>
      if versions ≠ [1] then fail (controlError "Trading controls schema is unsupported")
      else if f.prepared.isNone ∨ f.charges.isNone then fail unavailable
      else do
        if f.executionPauses.isNone then write (some { f with executionPauses := some .empty })
        return .opened

def openControls (create : Bool) : Durable (Option File) Exc Store := do
  match ← look with
  | none =>
      if create then
        write (some .blank)
        let f ← executescript script .blank
        openFile f
      else fail (controlError "Trading controls require initialization")
  | some f => openFile f

end MoomooMcp.TradingControls
