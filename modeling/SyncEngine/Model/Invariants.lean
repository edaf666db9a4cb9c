import SyncEngine.Lib.InsertionMap
import SyncEngine.Model.Protocol
import Mathlib.Data.Finset.Insert

/-!
# Request and response validation

The assertions of `invariants.ts`. Each loop of the source is a monadic fold whose state holds the
sets and maps the loop fills.
-/

namespace SyncEngine

open JavaScript Throwing

variable {ε Intent Operation Rejection : Type}

def assertNonEmptyString (label value : String) : Result ε Unit :=
  throwIf (value.length = 0) (.syncEngineError s!"{label} must not be empty")

def assertLogSequence (label : String) (value : Int) (allowZero : Bool) : Result ε Unit :=
  let minimum := if allowZero then 0 else 1
  throwIf (¬IsSafeInteger value ∨ value < minimum) (.invalidSequenceError label value)

def assertClientSequence (label : String) (value : Int) : Result ε Unit :=
  assertLogSequence label value false

def assertSubmissionIdentity (label : String) (identity : OperationSubmissionIdentity) :
    Result ε Unit := do
  assertNonEmptyString s!"{label}.operationId" identity.operationId
  assertNonEmptyString s!"{label}.clientId" identity.clientId
  assertClientSequence s!"{label}.clientSequence" identity.clientSequence
  assertNonEmptyString s!"{label}.intentHash" identity.intentHash

def clientPositionKey (clientId : String) (clientSequence : Int) : String :=
  clientId ++ (Char.ofNat 0).toString ++ toString clientSequence

/-! ### Requests -/

/-- The set and the map that `assertProposalBatch` fills. -/
structure ProposalBatchIndex where
  operationIds : Finset String
  lastSequenceByClient : InsertionMap String Int

def assertClientOrder (previous : Option Int) (proposal : ProposedOperation Intent) :
    Result ε Unit :=
  match previous with
  | some previous =>
      throwIf (proposal.clientSequence ≤ previous)
        (.invalidProposalOrderError proposal.clientId previous proposal.clientSequence)
  | none => .ok ()

def assertBatchedProposal (index : ProposalBatchIndex) (proposal : ProposedOperation Intent) :
    Result ε ProposalBatchIndex := do
  assertSubmissionIdentity "proposal" proposal.toOperationSubmissionIdentity
  throwIf (proposal.operationId ∈ index.operationIds)
    (.duplicateOperationIdError proposal.operationId)
  assertClientOrder (index.lastSequenceByClient.get? proposal.clientId) proposal
  return {
    operationIds := insert proposal.operationId index.operationIds
    lastSequenceByClient :=
      index.lastSequenceByClient.set proposal.clientId proposal.clientSequence }

def assertProposalBatch (proposals : List (ProposedOperation Intent)) : Result ε Unit := do
  let _ ← proposals.foldlM assertBatchedProposal ⟨∅, InsertionMap.empty⟩
  return ()

def assertRequestWithinLimits (request : SyncRequest Intent) (limits : Option ProtocolLimits) :
    Result ε Unit :=
  match limits with
  | some limits =>
      assertWithinLimit "proposals" request.proposals.length limits.maximumProposalsPerRequest
  | none => .ok ()

def assertSyncRequest (request : SyncRequest Intent) (limits : Option ProtocolLimits) :
    Result ε Unit := do
  assertLogSequence "baseSequence" request.baseSequence true
  assertPositiveSafeInteger "maximumEntries" request.maximumEntries
  assertRequestWithinLimits request limits
  assertProposalBatch request.proposals

/-! ### Responses -/

def assertCommittedOperation (label : String) (entry : CommittedOperation Operation) :
    Result ε Unit := do
  assertLogSequence s!"{label}.sequence" entry.sequence false
  assertNonEmptyString s!"{label}.operationId" entry.operationId
  assertNonEmptyString s!"{label}.origin.clientId" entry.origin.clientId
  assertClientSequence s!"{label}.origin.clientSequence" entry.origin.clientSequence
  assertNonEmptyString s!"{label}.origin.intentHash" entry.origin.intentHash

/-- The maps and the counter that the entry loop of `assertSyncResponse` keeps. -/
structure ResponseEntryIndex (Operation : Type) where
  expectedSequence : Int
  entriesByOperationId : InsertionMap String (CommittedOperation Operation)
  clientPositions : InsertionMap String String

def assertPositionUnbound (positionKey : String) (existing : Option String)
    (entry : CommittedOperation Operation) : Result ε Unit :=
  match existing with
  | some existing =>
      .error (.malformedSyncResponseError
        (s!"response binds client position {stringify positionKey} to both " ++
          s!"{stringify existing} and {stringify entry.operationId}"))
  | none => .ok ()

def assertResponseEntry (requestedBaseSequence : Int) (index : ResponseEntryIndex Operation)
    (entry : CommittedOperation Operation) : Result ε (ResponseEntryIndex Operation) := do
  assertCommittedOperation "response entry" entry
  throwIf (entry.sequence ≠ index.expectedSequence)
    (.malformedSyncResponseError
      s!"response entries must be contiguous from sequence {requestedBaseSequence + 1}")
  throwIf (index.entriesByOperationId.get? entry.operationId).isSome
    (.malformedSyncResponseError
      s!"response repeats committed operation {stringify entry.operationId}")
  let positionKey := clientPositionKey entry.origin.clientId entry.origin.clientSequence
  assertPositionUnbound positionKey (index.clientPositions.get? positionKey) entry
  return {
    expectedSequence := index.expectedSequence + 1
    entriesByOperationId := index.entriesByOperationId.set entry.operationId entry
    clientPositions := index.clientPositions.set positionKey entry.operationId }

def assertDecisionMatchesPage (headSequence : Int)
    (committed : Option (CommittedOperation Operation)) :
    ProposalDecision Operation Rejection → Result ε Unit
  | .accepted operationId sequence _ => do
      assertLogSequence "accepted decision sequence" sequence false
      throwIf (sequence > headSequence)
        (.malformedSyncResponseError s!"accepted decision {operationId} is beyond response head")
      throwIf (committed.any fun entry => entry.sequence ≠ sequence)
        (.malformedSyncResponseError
          s!"accepted decision {operationId} disagrees with its committed sequence")
  | .rejected operationId _ =>
      throwIf committed.isSome
        (.malformedSyncResponseError
          s!"rejected decision {operationId} also appears in the committed page")

def assertResponseDecision (headSequence : Int)
    (entriesByOperationId : InsertionMap String (CommittedOperation Operation))
    (decisionIds : Finset String) (decision : ProposalDecision Operation Rejection) :
    Result ε (Finset String) := do
  assertNonEmptyString "decision.operationId" decision.operationId
  throwIf (decision.operationId ∈ decisionIds)
    (.malformedSyncResponseError
      s!"response repeats decision for {stringify decision.operationId}")
  assertDecisionMatchesPage headSequence (entriesByOperationId.get? decision.operationId) decision
  return insert decision.operationId decisionIds

def assertResponseWithinLimits (response : SyncResponse Operation Rejection)
    (limits : Option ProtocolLimits) : Result ε Unit :=
  match limits with
  | some limits => do
      assertWithinLimit "entries" response.entries.length limits.maximumEntriesPerResponse
      assertWithinLimit "decisions" response.decisions.length limits.maximumProposalsPerRequest
  | none => .ok ()

def assertSyncResponse (response : SyncResponse Operation Rejection)
    (limits : Option ProtocolLimits) : Result ε Unit := do
  assertLogSequence "requestedBaseSequence" response.requestedBaseSequence true
  assertLogSequence "throughSequence" response.throughSequence true
  assertLogSequence "headSequence" response.headSequence true
  throwIf (response.requestedBaseSequence > response.throughSequence)
    (.malformedSyncResponseError "requestedBaseSequence cannot be greater than throughSequence")
  throwIf (response.throughSequence > response.headSequence)
    (.malformedSyncResponseError "throughSequence cannot be greater than headSequence")
  assertResponseWithinLimits response limits
  throwIf (response.entries.length ≠ response.throughSequence - response.requestedBaseSequence)
    (.malformedSyncResponseError
      (s!"entries length {response.entries.length} does not match the declared page " ++
        s!"{response.requestedBaseSequence + 1}..{response.throughSequence}"))
  throwIf (response.requestedBaseSequence < response.headSequence ∧ response.entries.length = 0)
    (.malformedSyncResponseError "a response behind the server head must advance throughSequence")
  let index ← response.entries.foldlM (assertResponseEntry response.requestedBaseSequence)
    ⟨response.requestedBaseSequence + 1, InsertionMap.empty, InsertionMap.empty⟩
  let _ ← response.decisions.foldlM
    (assertResponseDecision response.headSequence index.entriesByOperationId) ∅
  return ()

end SyncEngine
