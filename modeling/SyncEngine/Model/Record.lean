import SyncEngine.Model.Replica

/-!
# The durable record of a replica

The record that `indexeddb/store.ts` keeps for a stream and the functions of `indexeddb/record.ts` on
it. What a record holds is typed here, so that the checks for objects, arrays and missing properties
have nothing to find; all others stand in the order of the source.
-/

namespace SyncEngine

open JavaScript Throwing

variable {State Intent Operation Rejection : Type}

def indexedDbReplicaSchemaVersion : Int := 1

/-- The durable state of one stream. -/
structure IndexedDbReplicaRecord (State Intent Operation Rejection : Type) where
  schemaVersion : Int
  streamId : String
  replica : ReplicaState State Intent Operation
  /-- Permanent outcomes the application has not acknowledged. -/
  resolutions : List (ProposalDecision Operation Rejection)

structure IndexedDbReplicaStatus where
  confirmedSequence : Int
  pendingProposalCount : Nat
  acceptedAwaitingConfirmationCount : Nat
  unacknowledgedResolutionCount : Nat
  deriving DecidableEq

def OutboxEntry.isPending : OutboxEntry Intent Operation → Bool
  | .pending _ => true
  | .accepted _ _ _ => false

def statusFromRecord (record : IndexedDbReplicaRecord State Intent Operation Rejection) :
    IndexedDbReplicaStatus where
  confirmedSequence := record.replica.confirmedSequence
  pendingProposalCount := record.replica.outbox.countP OutboxEntry.isPending
  acceptedAwaitingConfirmationCount := record.replica.outbox.countP fun entry => !entry.isPending
  unacknowledgedResolutionCount := record.resolutions.length

def appendResolution (progress : List (ProposalDecision Operation Rejection) × Finset String)
    (decision : ProposalDecision Operation Rejection) :
    List (ProposalDecision Operation Rejection) × Finset String :=
  if decision.operationId ∈ progress.2 then progress
  else (progress.1 ++ [decision], insert decision.operationId progress.2)

def appendUniqueResolutions (existing received : List (ProposalDecision Operation Rejection)) :
    List (ProposalDecision Operation Rejection) :=
  if received.length = 0 then existing
  else
    (received.foldl appendResolution
      (existing, (existing.map ProposalDecision.operationId).toFinset)).1

/-! ### Validation -/

structure IndexedDbReplicaRecordError where
  streamId : String
  detail : String
  deriving DecidableEq

def IndexedDbReplicaRecordError.message (error : IndexedDbReplicaRecordError) : String :=
  s!"IndexedDB replica {stringify error.streamId} is invalid: {error.detail}"

def requireRecord (condition : Prop) [Decidable condition] (streamId detail : String) :
    Except IndexedDbReplicaRecordError Unit := throwIf (¬condition) ⟨streamId, detail⟩

def readNonEmptyString (value streamId path : String) : Except IndexedDbReplicaRecordError Unit :=
  requireRecord (value.length ≠ 0) streamId s!"{path} must be a non-empty string"

def readSafeInteger (value : Int) (streamId path : String) (minimum : Int) :
    Except IndexedDbReplicaRecordError Unit :=
  requireRecord (IsSafeInteger value ∧ minimum ≤ value) streamId
    s!"{path} must be a safe integer greater than or equal to {minimum}"

/-- The identities seen in a record so far. -/
structure IdentityIndex where
  operationIds : Finset String
  clientPositions : InsertionMap String String

def IdentityIndex.empty : IdentityIndex := ⟨∅, InsertionMap.empty⟩

def registerIdentity (streamId path : String) (index : IdentityIndex) (operationId clientId : String)
    (clientSequence : Int) : Except IndexedDbReplicaRecordError IdentityIndex := do
  requireRecord (operationId ∉ index.operationIds) streamId
    s!"{path} repeats operationId {stringify operationId}"
  match index.clientPositions.get? (clientPositionKey clientId clientSequence) with
  | some existingOperationId =>
      throw ⟨streamId, s!"{path} reuses client position {stringify clientId}:{clientSequence} " ++
        s!"already bound to {stringify existingOperationId}"⟩
  | none =>
      return {
        operationIds := insert operationId index.operationIds
        clientPositions :=
          index.clientPositions.set (clientPositionKey clientId clientSequence) operationId }

section Validation

variable (streamId : String) (replica : ReplicaState State Intent Operation)

def assertRecordedEntry (index : IdentityIndex) (indexed : CommittedOperation Operation × Nat) :
    Except IndexedDbReplicaRecordError IdentityIndex := do
  let (entry, position) := indexed
  let path := s!"replica.confirmedLog[{position}]"
  let retainedBaseSequence := replica.confirmedSequence - replica.confirmedLog.length
  readSafeInteger entry.sequence streamId s!"{path}.sequence" 1
  let expectedSequence := retainedBaseSequence + position + 1
  requireRecord (entry.sequence = expectedSequence) streamId
    s!"{path} must have sequence {expectedSequence}"
  readNonEmptyString entry.operationId streamId s!"{path}.operationId"
  readNonEmptyString entry.origin.clientId streamId s!"{path}.origin.clientId"
  readSafeInteger entry.origin.clientSequence streamId s!"{path}.origin.clientSequence" 1
  readNonEmptyString entry.origin.intentHash streamId s!"{path}.origin.intentHash"
  let index ← registerIdentity streamId path index entry.operationId entry.origin.clientId
    entry.origin.clientSequence
  requireRecord
    (entry.origin.clientId = replica.clientId →
      entry.origin.clientSequence < replica.nextClientSequence) streamId
    s!"{path}.origin.clientSequence must be less than nextClientSequence"
  return index

/-- What the loop over the outbox keeps. -/
structure OutboxIndex extends IdentityIndex where
  previousClientSequence : Int

def assertRecordedOutboxEntry (index : OutboxIndex) (indexed : OutboxEntry Intent Operation × Nat) :
    Except IndexedDbReplicaRecordError OutboxIndex := do
  let (entry, position) := indexed
  let path := s!"replica.outbox[{position}]"
  let proposal := entry.proposal
  readNonEmptyString proposal.operationId streamId s!"{path}.proposal.operationId"
  readNonEmptyString proposal.clientId streamId s!"{path}.proposal.clientId"
  readSafeInteger proposal.clientSequence streamId s!"{path}.proposal.clientSequence" 1
  readNonEmptyString proposal.intentHash streamId s!"{path}.proposal.intentHash"
  requireRecord (proposal.clientId = replica.clientId) streamId
    s!"{path}.proposal.clientId does not match replica.clientId"
  requireRecord (proposal.clientSequence < replica.nextClientSequence) streamId
    s!"{path}.proposal.clientSequence must be less than nextClientSequence"
  requireRecord (index.previousClientSequence < proposal.clientSequence) streamId
    s!"{path}.proposal.clientSequence must increase through the outbox"
  let identities ← registerIdentity streamId path index.toIdentityIndex proposal.operationId
    proposal.clientId proposal.clientSequence
  match entry with
  | .pending _ => return ⟨identities, proposal.clientSequence⟩
  | .accepted _ sequence _ =>
      readSafeInteger sequence streamId s!"{path}.sequence" 1
      requireRecord (replica.confirmedSequence < sequence) streamId
        s!"{path}.sequence must be greater than confirmedSequence"
      return ⟨identities, proposal.clientSequence⟩

/-- The body of the loop over the resolutions, with the identifiers seen so far. -/
def assertRecordedResolution (resolutionIds : Finset String)
    (indexed : ProposalDecision Operation Rejection × Nat) :
    Except IndexedDbReplicaRecordError (Finset String) := do
  let (decision, position) := indexed
  let path := s!"resolutions[{position}]"
  readNonEmptyString decision.operationId streamId s!"{path}.operationId"
  requireRecord (decision.operationId ∉ resolutionIds) streamId
    s!"resolutions repeat operationId {stringify decision.operationId}"
  match decision with
  | .accepted _ sequence _ => readSafeInteger sequence streamId s!"{path}.sequence" 1
  | .rejected _ _ => pure ()
  return insert decision.operationId resolutionIds

def assertReplicaRecord (value : Option (IndexedDbReplicaRecord State Intent Operation Rejection))
    (expectedStreamId : String) :
    Except IndexedDbReplicaRecordError (IndexedDbReplicaRecord State Intent Operation Rejection) :=
  match value with
  | none => throw ⟨expectedStreamId, "record is missing"⟩
  | some record => do
      requireRecord (record.schemaVersion = indexedDbReplicaSchemaVersion) expectedStreamId
        s!"unsupported schemaVersion {record.schemaVersion}"
      requireRecord (record.streamId = expectedStreamId) expectedStreamId
        s!"stored streamId is {stringify record.streamId}"
      let replica := record.replica
      readNonEmptyString replica.clientId expectedStreamId "replica.clientId"
      readSafeInteger replica.nextClientSequence expectedStreamId "replica.nextClientSequence" 1
      readSafeInteger replica.confirmedSequence expectedStreamId "replica.confirmedSequence" 0
      requireRecord ((replica.confirmedLog.length : Int) ≤ replica.confirmedSequence) expectedStreamId
        "confirmedLog contains more entries than confirmedSequence"
      let identities ← replica.confirmedLog.zipIdx.foldlM
        (assertRecordedEntry expectedStreamId replica) IdentityIndex.empty
      let _ ← replica.outbox.zipIdx.foldlM (assertRecordedOutboxEntry expectedStreamId replica)
        ⟨identities, 0⟩
      let _ ← record.resolutions.zipIdx.foldlM (assertRecordedResolution expectedStreamId) ∅
      return record

end Validation

end SyncEngine
