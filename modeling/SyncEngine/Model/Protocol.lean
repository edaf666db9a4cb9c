import SyncEngine.Lib.JavaScript
import SyncEngine.Lib.Throwing

/-!
# The protocol: errors, identities, requests, responses and limits

The data of `errors.ts`, `protocol.ts` and `limits.ts`. Intents, operations, rejections and states
belong to the application and stay type variables; so does the type `ε` of what application code may
throw. Identifiers are strings and sequence numbers are JavaScript numbers.
-/

namespace SyncEngine

open JavaScript Throwing

/-- The error classes of the protocol core, with the data each one carries, and an exception that
came out of application code. -/
inductive SyncEngineError (ε : Type) where
  | syncEngineError (message : String)
  | invalidSequenceError (label : String) (value : Int)
  | invalidLimitError (label : String) (value : Int)
  | protocolLimitExceededError (label : String) (received maximum : Int)
  | duplicateOperationIdError (operationId : String)
  | invalidProposalOrderError (clientId : String) (previous received : Int)
  | unknownBaseSequenceError (baseSequence headSequence : Int)
  | operationIdentityConflictError (operationId : String)
  | operationIntentConflictError (operationId : String)
  | clientSequenceConflictError (clientId : String) (clientSequence : Int)
      (existingOperationId receivedOperationId : String)
  | malformedSyncResponseError (message : String)
  | logGapError (expectedSequence receivedSequence : Int)
  | logDivergenceError (sequence : Int) (expectedOperationId receivedOperationId detail : String)
  | decisionConflictError (operationId : String)
  | applicationError (exception : ε)
  deriving DecidableEq

/-- The result of protocol code: a value, or a thrown error. -/
abbrev Result (ε α : Type) := Except (SyncEngineError ε) α

/-- Run application code; what it throws passes through. -/
def application {ε α : Type} : Except ε α → Result ε α
  | .ok a => .ok a
  | .error exception => .error (.applicationError exception)

@[simp] theorem application_ok {ε α : Type} (a : α) :
    (application (.ok a : Except ε α)) = .ok a := rfl

@[simp] theorem application_error {ε α : Type} (exception : ε) :
    (application (.error exception : Except ε α)) = .error (.applicationError exception) := rfl

@[simp] theorem application_eq_ok {ε α : Type} (x : Except ε α) (a : α) :
    application x = .ok a ↔ x = .ok a := by
  cases x <;> simp

theorem application_bind {ε α β : Type} (x : Except ε α) (f : α → Except ε β) :
    application (x >>= f) = (application x >>= fun a => application (f a)) := by
  cases x <;> rfl

/-! ### Identities and operations -/

structure OperationIdentity where
  operationId : String
  clientId : String
  clientSequence : Int
  deriving DecidableEq

structure OperationSubmissionIdentity extends OperationIdentity where
  intentHash : String
  deriving DecidableEq

/-- A durable client intent, with an identity and a local order but no canonical position yet. -/
structure ProposedOperation (Intent : Type) extends OperationSubmissionIdentity where
  intent : Intent
  deriving DecidableEq

structure OperationOrigin where
  clientId : String
  clientSequence : Int
  intentHash : String
  deriving DecidableEq

/-- An operation accepted into the canonical log. -/
structure CommittedOperation (Operation : Type) where
  sequence : Int
  operationId : String
  origin : OperationOrigin
  operation : Operation
  deriving DecidableEq

/-- A permanent outcome for one operation identity. -/
inductive ProposalDecision (Operation Rejection : Type) where
  | accepted (operationId : String) (sequence : Int) (operation : Operation)
  | rejected (operationId : String) (reason : Rejection)
  deriving DecidableEq

def ProposalDecision.operationId {Operation Rejection : Type} :
    ProposalDecision Operation Rejection → String
  | .accepted operationId _ _ => operationId
  | .rejected operationId _ => operationId

@[simp] theorem ProposalDecision.operationId_accepted {Operation Rejection : Type} (operationId : String)
    (sequence : Int) (operation : Operation) :
    (accepted operationId sequence operation : ProposalDecision Operation Rejection).operationId =
      operationId := rfl

@[simp] theorem ProposalDecision.operationId_rejected {Operation Rejection : Type} (operationId : String)
    (reason : Rejection) :
    (rejected operationId reason : ProposalDecision Operation Rejection).operationId = operationId := rfl

/-- What the application decides before a canonical sequence is allocated. -/
inductive DecisionDraft (Operation Rejection : Type) where
  | accepted (operation : Operation)
  | rejected (reason : Rejection)
  deriving DecidableEq

structure SyncRequest (Intent : Type) where
  baseSequence : Int
  maximumEntries : Int
  proposals : List (ProposedOperation Intent)
  deriving DecidableEq

structure SyncResponse (Operation Rejection : Type) where
  requestedBaseSequence : Int
  throughSequence : Int
  headSequence : Int
  entries : List (CommittedOperation Operation)
  decisions : List (ProposalDecision Operation Rejection)
  deriving DecidableEq

/-! ### Envelopes -/

def syncProtocolVersion : Int := 1

structure SyncRequestEnvelope (Intent : Type) where
  protocolVersion : Int
  streamId : String
  request : SyncRequest Intent

structure SyncResponseEnvelope (Operation Rejection : Type) where
  protocolVersion : Int
  streamId : String
  response : SyncResponse Operation Rejection

/-! ### Limits -/

structure ProtocolLimits where
  maximumProposalsPerRequest : Int
  maximumEntriesPerResponse : Int
  deriving DecidableEq

/-- `Partial<ProtocolLimits>`. -/
structure ProtocolLimitOverrides where
  maximumProposalsPerRequest : Option Int := none
  maximumEntriesPerResponse : Option Int := none

def defaultProtocolLimits : ProtocolLimits where
  maximumProposalsPerRequest := 64
  maximumEntriesPerResponse := 256

variable {ε : Type}

def assertPositiveSafeInteger (label : String) (value : Int) : Result ε Unit :=
  throwIf (¬IsSafeInteger value ∨ value < 1) (.invalidLimitError label value)

def assertNonNegativeSafeInteger (label : String) (value : Int) : Result ε Unit :=
  throwIf (¬IsSafeInteger value ∨ value < 0) (.invalidLimitError label value)

def resolveProtocolLimits (overrides : ProtocolLimitOverrides) : Result ε ProtocolLimits := do
  let maximumProposalsPerRequest :=
    overrides.maximumProposalsPerRequest.getD defaultProtocolLimits.maximumProposalsPerRequest
  let maximumEntriesPerResponse :=
    overrides.maximumEntriesPerResponse.getD defaultProtocolLimits.maximumEntriesPerResponse
  assertPositiveSafeInteger "maximumProposalsPerRequest" maximumProposalsPerRequest
  assertPositiveSafeInteger "maximumEntriesPerResponse" maximumEntriesPerResponse
  return { maximumProposalsPerRequest, maximumEntriesPerResponse }

def assertWithinLimit (label : String) (received maximum : Int) : Result ε Unit :=
  throwIf (received > maximum) (.protocolLimitExceededError label received maximum)

/-- Limits that `resolveProtocolLimits` lets through. -/
structure ProtocolLimits.Resolved (limits : ProtocolLimits) : Prop where
  proposals : 1 ≤ limits.maximumProposalsPerRequest
  entries : 1 ≤ limits.maximumEntriesPerResponse

@[simp] theorem assertPositiveSafeInteger_eq_ok (label : String) (value : Int) (u : Unit) :
    (assertPositiveSafeInteger label value : Result ε Unit) = .ok u ↔
      IsSafeInteger value ∧ 1 ≤ value := by
  rw [assertPositiveSafeInteger, throwIf_eq_ok, not_or, not_not, not_lt]

@[simp] theorem assertNonNegativeSafeInteger_eq_ok (label : String) (value : Int) (u : Unit) :
    (assertNonNegativeSafeInteger label value : Result ε Unit) = .ok u ↔
      IsSafeInteger value ∧ 0 ≤ value := by
  rw [assertNonNegativeSafeInteger, throwIf_eq_ok, not_or, not_not, not_lt]

@[simp] theorem assertWithinLimit_eq_ok (label : String) (received maximum : Int) (u : Unit) :
    (assertWithinLimit label received maximum : Result ε Unit) = .ok u ↔ received ≤ maximum := by
  rw [assertWithinLimit, throwIf_eq_ok, not_lt]

/-- Resolved limits are positive, whatever was overridden. -/
theorem resolveProtocolLimits_resolved {overrides : ProtocolLimitOverrides} {limits : ProtocolLimits}
    (h : (resolveProtocolLimits overrides : Result ε ProtocolLimits) = .ok limits) :
    limits.Resolved := by
  rw [resolveProtocolLimits, bind_unit_eq_ok, bind_unit_eq_ok, assertPositiveSafeInteger_eq_ok,
    assertPositiveSafeInteger_eq_ok] at h
  obtain ⟨hproposals, hentries, hlimits⟩ := h
  obtain rfl := Except.ok.inj hlimits
  exact ⟨hproposals.2, hentries.2⟩

theorem resolveProtocolLimits_safe {overrides : ProtocolLimitOverrides} {limits : ProtocolLimits}
    (h : (resolveProtocolLimits overrides : Result ε ProtocolLimits) = .ok limits) :
    limits.maximumProposalsPerRequest ≤ maxSafeInteger := by
  rw [resolveProtocolLimits, bind_unit_eq_ok, bind_unit_eq_ok, assertPositiveSafeInteger_eq_ok] at h
  obtain ⟨⟨hsafe, -⟩, -, hlimits⟩ := h
  obtain rfl := Except.ok.inj hlimits
  exact hsafe.2

/-- The default limits pass their own check. -/
example : (resolveProtocolLimits {} : Result Empty ProtocolLimits) = .ok defaultProtocolLimits := rfl

end SyncEngine
