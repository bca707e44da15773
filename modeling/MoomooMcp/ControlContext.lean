import MoomooMcp.Budget
import MoomooMcp.System

namespace MoomooMcp.ControlContext

open Intent TradingControls Executor

structure Policy where
  requireApproval : Bool
  maxDailyNotional : Caps

def Policy.controlled (policy : Policy) : Bool := policy.requireApproval || !policy.maxDailyNotional.isEmpty

/-- The running service: its policy, and whether durable trading controls are configured. -/
structure Service where
  policy : Policy
  tradingControls : Bool

structure Valuation where
  currency : String
  amount : Numeral

/-- The mutation that a thread runs, from its outer request on. `commit` is the
charge that this execution committed. -/
structure Active where
  method : String
  parameters : Parameters
  approvalId : Option RequestId
  contract : Option Contract := none
  valuation : Option Valuation := none
  reservedParameters : Option Parameters := none
  commit : Option Budget.Commit := none

/-- What a thread keeps beside its program point. It has `passed` once
`check_dispatch_controls` returned. -/
structure Local where
  operation : Option Active := none
  passed : Bool := false

def kind (method : String) (p : Parameters) : Option Kind :=
  if method = "place_order" then some .place
  else if method = "place_combo_order" then some .placeCombo
  else if method = "cancel_order" then some .cancel
  else if method = "modify_order" then
    some (if p.modifyOrderOp.map Text.normalize = some "CANCEL" then .cancel else .modify)
  else none

/-- A request of an executor that the outer call makes. -/
def presents (env : Environment) (method : String) (p : Parameters) (c : Request) : Prop :=
  Text.normalize p.trdEnv = env.text ∧ kind method p = some c.kind ∧ p.operationId = some c.operationId ∧
    p.admissionEpoch = some c.epoch ∧ Text.toNat p.accId = c.account

instance (env : Environment) (method : String) (p : Parameters) (c : Request) : Decidable (presents env method p c) :=
  inferInstanceAs (Decidable (_ ∧ _))

/-- The outer request with the account and the environment that were resolved for it. -/
def Active.fixed (active : Active) (account : Account) (env : Environment) : Parameters :=
  { active.parameters with accId := toString account, trdEnv := env.text }

def Active.addsExposure (active : Active) : Bool :=
  active.method = "place_order" ∨ active.method = "place_combo_order" ∨
    active.method = "modify_order" ∧
      active.parameters.modifyOrderOp.elim false (fun op => Text.normalize op ∈ ["NORMAL", "ENABLE"])

def Active.reservation (active : Active) (policy : Policy) (p : Parameters) : Reservation :=
  ⟨active.method, p, active.approvalId, policy.requireApproval, active.contract⟩

/-- Whether the executor assesses the facts of the order that results. -/
def assesses (env : Environment) (c : Request) : Bool :=
  match c.kind with
  | .place | .placeCombo => true
  | .modify | .cancel => Preparation.merges env c

/-- `assess_control_facts`, once the policy accepted the facts. -/
def Active.assess (active : Active) (policy : Policy) (contract : Contract) (valuation : Valuation) : Active :=
  { active with
    contract := some contract
    valuation := if policy.maxDailyNotional.isEmpty then active.valuation else some valuation }

/-- The refusals of `check_dispatch_controls` before it consumes. -/
def checkDispatchControls (service : Service) (operation : Option Active) (account : Account) (env : Environment) :
    Except Exc (Option (Active × Parameters)) :=
  if !service.policy.controlled then .ok none
  else
    match operation with
    | none => .error (controlError "Trading controls have no active prepared execution")
    | some active =>
        if !service.tradingControls then
          .error (controlError "Trading controls have no active prepared execution")
        else if service.policy.requireApproval ∧ active.parameters.accId ≠ toString account then
          .error (controlError "Approved execution requires the explicit prepared account")
        else if !service.policy.maxDailyNotional.isEmpty ∧ active.addsExposure ∧ active.valuation.isNone then
          .error (controlError "Daily budget requires a fresh full-order valuation")
        else .ok (some (active, active.fixed account env))

/-- The reservation that `confirm_dispatch_controls` rechecks. -/
def confirmDispatchControls (service : Service) (operation : Option Active) : Except Exc (Option Reservation) :=
  if !service.policy.controlled then .ok none
  else
    match operation.bind (fun active => active.reservedParameters.map (active.reservation service.policy)) with
    | none => .error (controlError "Trading controls have no committed reservation")
    | some r =>
        if !service.tradingControls then .error (controlError "Trading controls have no committed reservation")
        else .ok (some r)

/-- One service with both executors. The journals and the controls survive a crash. -/
structure Sys where
  service : Service
  journals : Environment → System.Sys
  controls : Budget.Sys
  locals : Tid → Local

def initial : Sys := ⟨⟨⟨false, []⟩, false⟩, System.initial, Budget.initial, fun _ => ⟨none, false⟩⟩

inductive Action
  | start (service : Service)
  | reopen (env : Environment) (epoch : Epoch) (fault reviewFault : ExecutionStore.Fault)
  | crash
  | operator (a : Budget.Action)
  | enter (t : Tid) (env : Environment) (method : String) (p : Parameters) (approvalId : Option RequestId)
      (c : Request) (refusal : Option Exc)
  | thread (t : Tid) (env : Environment) (i : Input)
  | assess (t : Tid) (env : Environment) (orders : Except Exc (List BrokerOrder)) (fault : ExecutionStore.Fault)
      (a : Preparation.Assessment) (contract : Contract) (valuation : Valuation)
  | reserve (t : Tid) (env : Environment) (fault : Bool) (now later : ℚ)
  | refuse (t : Tid) (env : Environment) (e : Exc)
  | mark (t : Tid) (env : Environment) (readyFault : ExecutionStore.Fault) (confirmFault : Bool) (now later : ℚ)
      (fault : ExecutionStore.Fault) (relock : Option String)

/-- The steps of the controls that no mutation takes. -/
def operated : Budget.Action → Bool
  | .prepare _ _ _ _ _ _ _ | .decide _ _ _ _ _ _ _ | .setPaused _ _ _ _ _ _ _ _ | .close => true
  | .consume _ _ _ _ _ _ _ | .confirm _ _ _ _ | .restart => false

/-- The steps of an executor that have no action of their own here. -/
def plain : Input → Bool
  | .present _ _ | .prepare _ _ _ | .mark _ _ _ _ _ => false
  | _ => true

def phase (s : Sys) (env : Environment) (t : Tid) : Phase :=
  (s.journals env).process.elim .idle (fun p => p.threads t)

/-- A thread runs in one environment at a time. -/
def alone (s : Sys) (t : Tid) (env : Environment) : Bool :=
  match env with
  | .simulate => (phase s .real t).resting
  | .real => (phase s .simulate t).resting

/-- A step of one executor. -/
def stepJournal (s : Sys) (env : Environment) (a : System.Action) : Option Sys :=
  (System.step (s.journals env) a).map (fun j => { s with journals := Function.update s.journals env j })

def setLocal (s : Sys) (t : Tid) (l : Local) : Sys := { s with locals := Function.update s.locals t l }

@[simp] theorem setLocal_self (s : Sys) (t : Tid) (l : Local) : (setLocal s t l).locals t = l := by
  simp [setLocal]

theorem setLocal_other (s : Sys) (t : Tid) (l : Local) {u : Tid} (hu : u ≠ t) : (setLocal s t l).locals u = s.locals u := by
  simp [setLocal, hu]

/-- The context is dropped when the outer call returns. -/
def settle (s : Sys) (t : Tid) (env : Environment) : Sys :=
  if (phase s env t).resting then setLocal s t ⟨none, false⟩ else s

def stepThread (s : Sys) (t : Tid) (env : Environment) (i : Input) : Option Sys :=
  if alone s t env then (stepJournal s env (.thread t i)).map (fun s' => settle s' t env) else none

/-- A refusal before the marker. -/
def stepRefused (s : Sys) (t : Tid) (env : Environment) (e : Exc) : Option Sys :=
  stepThread s t env (.mark (some e) .none none .none none)

def amount (active : Active) : Numeral := active.valuation.elim (.finite ⟨0, 0⟩) Valuation.amount

/-- Commit the conservative charge and decision consumption before unlock. -/
def reserve (s : Sys) (t : Tid) (env : Environment) (account : Account) (fault : Bool) (now later : ℚ) : Option Sys :=
  match checkDispatchControls s.service (s.locals t).operation account env with
  | .error e => stepRefused s t env e
  | .ok none => some (setLocal s t { s.locals t with passed := true })
  | .ok (some (active, p)) =>
      let r := active.reservation s.service.policy p
      let currency := active.valuation.map Valuation.currency
      let caps := s.service.policy.maxDailyNotional
      match (consume s.controls.store s.controls.db fault now later r currency (amount active) caps).1,
        Budget.step s.controls (.consume fault now later r currency (amount active) caps) with
      | _, none => none
      | .error e, some controls => stepRefused { s with controls := controls } t env e
      | .ok (), some controls =>
          some (setLocal { s with controls := controls } t
            ⟨some { active with reservedParameters := some p, commit := controls.history.getLast? }, true⟩)

def failure (x : Except Exc Unit) : Option Exc :=
  match x with
  | .ok () => none
  | .error e => some e

/-- What the confirmation answers, and the controls after it. -/
def confirm (s : Sys) (t : Tid) (fault : Bool) (now later : ℚ) : Except Exc Unit × Budget.Sys :=
  match confirmDispatchControls s.service (s.locals t).operation with
  | .error e => (.error e, s.controls)
  | .ok none => (.ok (), s.controls)
  | .ok (some r) =>
      let x := confirmReservation s.controls.store s.controls.db fault now later r
      (x.1, Budget.stored s.controls x)

def enter (s : Sys) (t : Tid) (env : Environment) (active : Active) (c : Request) (refusal : Option Exc) : Option Sys :=
  if (phase s env t).resting ∧ presents env active.method active.parameters c then
    stepThread (setLocal s t ⟨some active, false⟩) t env (.present c refusal)
  else none

def assess (s : Sys) (t : Tid) (env : Environment) (c : Request) (i : Input) (contract : Contract)
    (valuation : Valuation) : Option Sys :=
  let l := s.locals t
  let operation :=
    if assesses env c then l.operation.map (fun active => active.assess s.service.policy contract valuation)
    else l.operation
  stepThread (setLocal s t { l with operation := operation }) t env i

def step (s : Sys) : Action → Option Sys
  | .start service =>
      if (s.journals .simulate).process.isNone ∧ (s.journals .real).process.isNone then
        some { s with service := service, controls := { s.controls with store := .opened } }
      else none
  | .reopen env epoch fault reviewFault => stepJournal s env (.reopen epoch fault reviewFault)
  | .crash =>
      some { s with
        journals := fun env => { s.journals env with process := none }
        locals := fun _ => ⟨none, false⟩ }
  | .operator a => if operated a then (Budget.step s.controls a).map (fun c => { s with controls := c }) else none
  | .enter t env method p approvalId c refusal => enter s t env ⟨method, p, approvalId, none, none, none, none⟩ c refusal
  | .thread t env i => if plain i then stepThread s t env i else none
  | .assess t env orders fault a contract valuation =>
      match phase s env t with
      | .entered c _ => assess s t env c (.prepare orders fault a) contract valuation
      | _ => none
  | .reserve t env fault now later =>
      match phase s env t, (s.locals t).passed with
      | .prepared _ row _, false => reserve s t env row.account fault now later
      | _, _ => none
  | .refuse t env e =>
      match phase s env t with
      | .prepared _ _ _ => stepRefused s t env e
      | _ => none
  | .mark t env readyFault confirmFault now later fault relock =>
      match phase s env t, (s.locals t).passed with
      | .prepared _ _ _, true =>
          let x := confirm s t confirmFault now later
          stepThread { s with controls := x.2 } t env (.mark none readyFault (failure x.1) fault relock)
      | _, _ => none

end MoomooMcp.ControlContext
