import Mathlib.Logic.Basic

namespace MoomooMcp

/-- The exception classes the mutation path tells apart. `other` stands for
every class that is neither a value, a type nor a runtime error. -/
inductive ExcType
  | orderNotSent
  | orderOutcomeUnknown
  | orderReceiptUnreadable
  | executionStore
  | executionConflict
  | tradingPolicy
  | tradingControl
  | value
  | type
  | runtime
  | other
  deriving DecidableEq, Repr

structure Exc where
  type : ExcType
  message : String
  admitted : Bool := false
  deriving DecidableEq, Repr

namespace OrderErrors

def notSentMessage (operation reason : String) : String :=
  operation ++ " was refused before any request was sent to the gateway, " ++
    "so no order was sent by this invocation. This does not establish " ++
    "the outcome of any earlier attempt. " ++ reason

def outcomeUnknownMessage (operation gatewayMessage : String) : String :=
  operation ++ " may have been sent: the request was dispatched to the " ++
    "gateway and no acknowledgement came back, so its outcome is unknown. " ++
    "The gateway said: " ++ gatewayMessage ++ ". Check get_orders before retrying; " ++
    "this request was not resent automatically."

def receiptUnreadableMessage (operation reason : String) : String :=
  operation ++ ": the gateway acknowledged the request, but its receipt " ++
    "could not be read, so the order identifier is unknown (" ++ reason ++ "). Do " ++
    "not resend this request. Find the order with get_orders."

/-- What leaves a `not_sent` scope when `exc` is raised inside it. -/
def notSent (operation : String) (admitted identityLookup : Bool) (exc : Exc) : Exc :=
  match exc.type with
  | .orderNotSent => { exc with admitted := exc.admitted || admitted }
  | .orderOutcomeUnknown | .orderReceiptUnreadable | .other => exc
  | .executionStore =>
      if identityLookup then exc
      else ⟨.orderNotSent, notSentMessage operation exc.message, admitted⟩
  | .executionConflict | .tradingPolicy | .tradingControl | .value | .type | .runtime =>
      ⟨.orderNotSent, notSentMessage operation exc.message, admitted⟩

/-- A failed write whose relock failed too keeps its class; only the text grows.
The new instance starts without the `admitted` mark. -/
def withRelockError (failure : Exc) (relockError : String) : Exc :=
  ⟨failure.type, failure.message ++ " The gateway was also left unlocked: " ++ relockError ++
    ". Order execution is halted until lock_trade succeeds.", false⟩

@[simp] theorem withRelockError_type (failure : Exc) (relockError : String) :
    (withRelockError failure relockError).type = failure.type := rfl

theorem notSent_outcome {operation : String} {admitted identityLookup : Bool} {exc : Exc}
    (h : exc.type = .orderOutcomeUnknown ∨ exc.type = .orderReceiptUnreadable) :
    notSent operation admitted identityLookup exc = exc := by
  unfold notSent
  rcases h with h | h <;> rw [h]

/-- Inside an admitted scope every classified failure becomes a refusal that
carries the admission mark. -/
theorem notSent_admitted {operation : String} {identityLookup : Bool} {exc : Exc}
    (h : (notSent operation true identityLookup exc).type = .orderNotSent) :
    (notSent operation true identityLookup exc).admitted = true := by
  unfold notSent at h ⊢
  cases ht : exc.type with
  | orderNotSent => simp
  | orderOutcomeUnknown | orderReceiptUnreadable | other => simp [ht] at h
  | executionStore =>
      cases identityLookup with
      | true => simp [ht] at h
      | false => simp
  | executionConflict | tradingPolicy | tradingControl | value | type | runtime => simp

end OrderErrors

end MoomooMcp
