import MoomooMcp.Intent

namespace MoomooMcp

/-- The environment that a text names, however it is written. -/
def Environment.ofText (text : String) : Option Environment :=
  if Text.normalize text = "REAL" then some .real
  else if Text.normalize text = "SIMULATE" then some .simulate
  else none

namespace ClientAuthorization

inductive Permission
  | marketRead
  | realRead
  | simulateRead
  | realWrite
  | simulateWrite
  | gatewayControl
  deriving DecidableEq, Repr

def Permission.ofAccess (env : Environment) (write : Bool) : Permission :=
  match env, write with
  | .real, true => .realWrite
  | .real, false => .realRead
  | .simulate, true => .simulateWrite
  | .simulate, false => .simulateRead

def positiveIds (ids : Option (List Account)) : Prop := ∀ list ∈ ids, ∀ account ∈ list, 0 < account

instance (ids : Option (List Account)) : Decidable (positiveIds ids) :=
  match ids with
  | none => .isTrue nofun
  | some list =>
      decidable_of_iff (∀ account ∈ list, 0 < account)
        ⟨fun h list' he account hm => h account (by cases he; exact hm), fun h => h list rfl⟩

/-- The grants of a restricted client. No account list leaves every account of an
environment to its permission. -/
structure ClientGrants where
  permissions : List Permission
  realAccIds : Option (List Account)
  simulateAccIds : Option (List Account)
  real_positive : positiveIds realAccIds
  simulate_positive : positiveIds simulateAccIds

def ClientGrants.accounts (grants : ClientGrants) : Environment → Option (List Account)
  | .real => grants.realAccIds
  | .simulate => grants.simulateAccIds

/-- No grants are those of the trusted process, or of a legacy full-policy credential. -/
abbrev Grants := Option ClientGrants

/-- Whether the grants include an account, for reading or for writing. -/
def ClientGrants.includes (grants : ClientGrants) (env : Environment) (account : Account) (write : Bool) : Prop :=
  Permission.ofAccess env write ∈ grants.permissions ∧ ∀ ids ∈ grants.accounts env, account ∈ ids

instance (grants : ClientGrants) (env : Environment) (account : Account) (write : Bool) :
    Decidable (grants.includes env account write) :=
  match h : grants.accounts env with
  | none => decidable_of_iff (Permission.ofAccess env write ∈ grants.permissions) (by simp [ClientGrants.includes, h])
  | some ids =>
      decidable_of_iff (Permission.ofAccess env write ∈ grants.permissions ∧ account ∈ ids)
        (by simp [ClientGrants.includes, h])

def Grants.includes (grants : Grants) (env : Environment) (account : Account) (write : Bool) : Prop :=
  ∀ g ∈ grants, g.includes env account write

def accountAccessAllowed (grants : Grants) (trdEnv accId : String) (write : Bool) : Bool :=
  match grants, Environment.ofText trdEnv with
  | none, _ => true
  | some _, none => false
  | some g, some env =>
      decide (Permission.ofAccess env write ∈ g.permissions) &&
        (g.accounts env).all (fun ids => Text.isDecimal accId && ids.contains (Text.toNat accId))

def authorizationError (message : String) : Exc := ⟨.other, message, false⟩

def checkAccountAccess (grants : Grants) (trdEnv accId : String) (write : Bool) : Except Exc Unit :=
  if accountAccessAllowed grants trdEnv accId write then .ok ()
  else .error (authorizationError "Client permission does not allow this account")

@[simp] theorem ofText_text (env : Environment) : Environment.ofText env.text = some env := by
  cases env <;> decide

theorem isDecimal_toString (n : ℕ) : Text.isDecimal (toString n) = true := by
  have hdigits : (toString n).toList = Nat.toDigits 10 n := Nat.toList_repr
  have hne : (toString n).isEmpty = false := by
    rw [Bool.eq_false_iff, ne_eq, String.isEmpty_iff, ← String.toList_eq_nil_iff, hdigits]
    exact Nat.toDigits_ne_nil
  simp only [Text.isDecimal, hne, hdigits, Bool.not_false, Bool.true_and, List.all_eq_true]
  exact fun _ hc => Nat.isDigit_of_mem_toDigits (by decide) (by decide) hc

theorem toNat_toString (n : ℕ) : Text.toNat (toString n) = n := by
  have hdigits : (toString n).toList = Nat.toDigits 10 n := Nat.toList_repr
  rw [Text.toNat, hdigits]
  exact Nat.ofDigitChars_ten_toDigits

/-- The check of a numeric account is inclusion in the grants. -/
theorem accountAccessAllowed_iff {grants : Grants} {trdEnv : String} {env : Environment} {account : Account}
    {write : Bool} (henv : Environment.ofText trdEnv = some env) :
    accountAccessAllowed grants trdEnv (toString account) write = true ↔ grants.includes env account write := by
  cases grants with
  | none => simp [accountAccessAllowed, Grants.includes]
  | some g =>
      simp only [accountAccessAllowed, henv, isDecimal_toString, toNat_toString, Grants.includes,
        ClientGrants.includes, Bool.and_eq_true, decide_eq_true_eq]
      cases ha : g.accounts env <;> simp [ha]

end ClientAuthorization

end MoomooMcp
