import MoomooMcp.Sessions
import MoomooMcp.Settings

namespace MoomooMcp.Deployments

open Intent OrderErrors Accounts ClientAuthorization PreDispatch Sessions Settings

def policyOf : Call → AccountPolicy
  | .paper w _ _ => w.policy
  | .real w _ _ => w.policy

variable {policy : AccountPolicy} {operation : String} {c : Call} {env : Environment}

/-- The modes that let an environment be written to. -/
theorem checkWrite_mode (h : policy.checkWrite operation env.text = .ok ()) :
    policy.mode ≠ .readOnly ∧ (env = .real → policy.mode = .real) := by
  rw [AccountPolicy.checkWrite] at h
  dsimp only at h
  split at h
  · next hwritable =>
      rw [AccountPolicy.writable] at hwritable
      cases hmode : policy.mode with
      | readOnly =>
          rw [hmode] at hwritable
          cases hwritable
      | simulate =>
          rw [hmode] at hwritable
          refine ⟨nofun, ?_⟩
          rintro rfl
          revert hwritable
          decide
      | real => exact ⟨nofun, fun _ => rfl⟩
  · cases h

/-- A call that starts its write passed the check of its mode. -/
theorem writes_checked (h : c.outcome.result = .ok .writeStarts) :
    ∃ operation, (policyOf c).checkWrite operation c.env.text = .ok () := by
  cases c with
  | paper w method p =>
      rcases @PaperBoundary.call_ending w p method with ⟨e, he⟩ | ⟨kind, fields, hentered, -, -⟩
      · rw [Call.outcome, he] at h
        cases h
      · obtain ⟨_, hwrite, -⟩ := Checks.bind_ok.mp hentered.checked
        exact ⟨_, hwrite⟩
  | real w method p =>
      rcases @RealBoundary.call_ending w method p with ⟨e, he⟩ | ⟨kind, hentered, -⟩
      · rw [Call.outcome, he] at h
        cases h
      · obtain ⟨_, hwrite, -⟩ := Checks.bind_ok.mp hentered.checked
        exact ⟨_, hwrite⟩

/-- The journal of an environment, as it is configured. -/
def journal (settings : Settings) : Environment → Option String
  | .real => settings.realJournalPath
  | .simulate => settings.journalPath

/-- The accounts of an environment that the process may write to. -/
def listed (settings : Settings) : Environment → List Account
  | .real => settings.policy.realAccIds
  | .simulate => settings.simulatedAccountAllowlist.map Subtype.val

/-- A write that the environment of the process asked for: its mode by name, its account in
a list, its journal by a path, and a credential in front of it. -/
structure Intended (environ : Environ) (settings : Settings) (env : Environment) (account : Account) : Prop where
  named : ∃ value, environ "MOOMOO_TRADING_MODE" = some value ∧ Text.normalize value = settings.policy.mode.text
  mode : settings.policy.mode ≠ .readOnly ∧ (env = .real → settings.policy.mode = .real)
  account : account ∈ listed settings env
  journal : (journal settings env).isSome = true
  authenticated : settings.authToken ≠ ""

variable {host : Host} {environ : Environ} {settings : Settings} {js js' : Journals} {calls : List Call}

theorem target_listed {account : Account} (h : Target c account) (hpolicy : policyOf c = settings.accountPolicy)
    (hmode : c.env = .real → settings.policy.mode = .real) : account ∈ listed settings c.env := by
  have hlisted := h.listed
  cases c with
  | paper w method p =>
      have hw : w.policy = settings.accountPolicy := hpolicy
      rw [Call.Listed, hw] at hlisted
      exact hlisted
  | real w method p =>
      have hw : w.policy = settings.accountPolicy := hpolicy
      rw [Call.Listed, hw] at hlisted
      apply hlisted
      rw [AccountPolicy.allowlistApplies, Settings.accountPolicy, hmode rfl]
      rfl

theorem journal_configured (h : FailsClosed host environ settings) {env : Environment} {account : Account}
    (hmode : settings.policy.mode ≠ .readOnly ∧ (env = .real → settings.policy.mode = .real))
    (haccount : account ∈ listed settings env) : (journal settings env).isSome = true := by
  cases env with
  | real => exact h.real.2 (hmode.2 rfl)
  | simulate =>
      refine (h.paper hmode.1 (.inr (.inr fun hnil => ?_))).2.1
      rw [listed, hnil] at haccount
      cases haccount

/-- Nothing is written that the environment of the process did not ask for. Whatever a
process is started with, and over every sequence of calls of any clients that it serves,
each write that starts is of a mode that is named, for an account that is listed, with a
journal, behind a credential, and for an account that its client is granted. -/
theorem writes_intended (h : start host environ = .ok settings) (hsession : Sessions.Session js calls js')
    (hcalls : ∀ c ∈ calls, policyOf c = settings.accountPolicy) :
    ∀ c ∈ calls, c.outcome.result = .ok .writeStarts → ∃ row, js' c.env c.operation = some row ∧
      Intended environ settings c.env row.account ∧ c.grants.includes c.env row.account true := by
  intro c hmem hwrites
  obtain ⟨row, hrow, htarget⟩ := (session_row hsession c hmem).1 hwrites
  obtain ⟨operation, hchecked⟩ := writes_checked hwrites
  rw [hcalls c hmem] at hchecked
  have hmode : settings.policy.mode ≠ .readOnly ∧ (c.env = .real → settings.policy.mode = .real) := checkWrite_mode hchecked
  obtain ⟨hs, hauthenticated⟩ := start_ok h
  have hclosed := hs.failsClosed hauthenticated
  have hlisted := target_listed htarget (hcalls c hmem) hmode.2
  obtain ⟨hauth, hnamed⟩ := hclosed.writes hmode.1
  exact ⟨row, hrow, ⟨hnamed, hmode, hlisted, journal_configured hclosed hmode hlisted, hauth⟩, htarget.granted⟩

theorem paperEnviron_policy (h : start asciiHost paperEnviron = .ok settings) : settings.accountPolicy = ⟨.simulate, [], [7]⟩ := by
  have hread : (start asciiHost paperEnviron).toOption.map (fun s =>
      (s.policy.mode, s.policy.realAccIds, s.simulatedAccountAllowlist.map Subtype.val)) = some (.simulate, [], [7]) := by
    decide +kernel
  rw [h] at hread
  obtain ⟨hmode, hreal, hlist⟩ : settings.policy.mode = .simulate ∧ settings.policy.realAccIds = [] ∧
      settings.simulatedAccountAllowlist.map Subtype.val = [7] := by
    simpa [Except.toOption] using hread
  rw [Settings.accountPolicy, hmode, hreal, hlist]

theorem placed_intended : ∃ settings row, start asciiHost paperEnviron = .ok settings ∧
    placed.after (fun _ _ => none) .simulate "A" = some row ∧ Intended paperEnviron settings .simulate row.account := by
  obtain ⟨settings, h⟩ := paperEnviron_starts
  obtain ⟨row, hrow, hintended, -⟩ := writes_intended h placed_session
    (fun c hc => by rw [List.mem_singleton.mp hc, paperEnviron_policy h]; rfl) placed List.mem_cons_self placed_writes
  exact ⟨settings, row, h, hrow, hintended⟩

end MoomooMcp.Deployments
