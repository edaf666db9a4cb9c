import SyncEngine.Model.Server

/-!
# Snapshots of the in-memory authority

`snapshot` and the snapshot branch of the constructor of `server.ts`. A snapshot holds the state, the
log and the decisions; the constructor checks them against each other and derives the index of client
positions again.
-/

namespace SyncEngine

open JavaScript Throwing

variable {State Intent Operation Rejection ε : Type}

structure LogServerSnapshot (State Operation Rejection : Type) where
  materializedState : State
  log : List (CommittedOperation Operation)
  decisions : List (StoredProposalDecision Operation Rejection)

structure ContiguousLogIndex where
  index : Nat
  operationIds : Finset String
  operationIdByClientPosition : InsertionMap String String

def assertLogPositionFree (existing : Option String) (entry : CommittedOperation Operation) :
    Result ε Unit :=
  match existing with
  | some existing =>
      .error (.clientSequenceConflictError entry.origin.clientId entry.origin.clientSequence existing
        entry.operationId)
  | none => .ok ()

/-- The body of the loop of `assertContiguousLog`. A list has no holes. -/
def assertLogEntry (seen : ContiguousLogIndex) (entry : CommittedOperation Operation) :
    Result ε ContiguousLogIndex := do
  let expected : Int := seen.index + 1
  assertCommittedOperation "committed operation" entry
  throwIf (entry.sequence ≠ expected) (.logGapError expected entry.sequence)
  throwIf (entry.operationId ∈ seen.operationIds) (.duplicateOperationIdError entry.operationId)
  let positionKey := clientPositionKey entry.origin.clientId entry.origin.clientSequence
  assertLogPositionFree (seen.operationIdByClientPosition.get? positionKey) entry
  return {
    index := seen.index + 1
    operationIds := insert entry.operationId seen.operationIds
    operationIdByClientPosition :=
      seen.operationIdByClientPosition.set positionKey entry.operationId }

def assertContiguousLog (log : List (CommittedOperation Operation)) : Result ε Unit := do
  let _ ← log.foldlM assertLogEntry ⟨0, ∅, InsertionMap.empty⟩
  return ()

def assertIdentityMatchesEntry (identity : OperationSubmissionIdentity)
    (entry : CommittedOperation Operation) : Result ε Unit :=
  throwIf (identity.operationId ≠ entry.operationId ∨ identity.clientId ≠ entry.origin.clientId ∨
      identity.clientSequence ≠ entry.origin.clientSequence ∨
      identity.intentHash ≠ entry.origin.intentHash)
    (.syncEngineError (s!"snapshot identity for {stringify identity.operationId} " ++
      "does not match its canonical entry"))

namespace InMemoryLogServer

variable (server : InMemoryLogServer State Operation Rejection)

def snapshot : LogServerSnapshot State Operation Rejection where
  materializedState := server.state
  log := server.log
  decisions := server.decisionsByOperationId.values

def assertStoredSequence : ProposalDecision Operation Rejection → Result ε Unit
  | .accepted _ sequence _ => assertLogSequence "stored accepted decision sequence" sequence false
  | .rejected _ _ => .ok ()

def assertRestoredPositionFree (existingOperationId : Option String)
    (identity : OperationSubmissionIdentity) : Result ε Unit :=
  match existingOperationId with
  | some existingOperationId =>
      throwIf (existingOperationId ≠ identity.operationId)
        (.clientSequenceConflictError identity.clientId identity.clientSequence
          existingOperationId identity.operationId)
  | none => .ok ()

def restoreDecision (record : StoredProposalDecision Operation Rejection) :
    Result ε (InMemoryLogServer State Operation Rejection) := do
  assertSubmissionIdentity "stored decision identity" record.identity
  assertNonEmptyString "stored decision operationId" record.decision.operationId
  throwIf (record.decision.operationId ≠ record.identity.operationId)
    (.syncEngineError (s!"stored decision operationId {stringify record.decision.operationId} " ++
      s!"does not match identity {stringify record.identity.operationId}"))
  assertStoredSequence record.decision
  let operationId := record.identity.operationId
  throwIf (server.decisionsByOperationId.get? operationId).isSome
    (.syncEngineError s!"snapshot contains duplicate decision for {stringify operationId}")
  let positionKey := record.identity.clientPositionKey
  assertRestoredPositionFree (server.operationIdByClientPosition.get? positionKey) record.identity
  return { server with
    decisionsByOperationId := server.decisionsByOperationId.set operationId record
    operationIdByClientPosition := server.operationIdByClientPosition.set positionKey operationId }

/-- The first loop of `#validateRestoredSnapshot`: an entry has its accepted decision. -/
def validateRestoredEntry (entry : CommittedOperation Operation) : Result ε Unit :=
  match server.decisionsByOperationId.get? entry.operationId with
  | some ⟨identity, .accepted _ sequence _⟩ => do
      throwIf (sequence ≠ entry.sequence)
        (.syncEngineError
          s!"snapshot log entry {entry.operationId} has no matching accepted decision")
      assertIdentityMatchesEntry identity entry
  | _ =>
      .error (.syncEngineError
        s!"snapshot log entry {entry.operationId} has no matching accepted decision")

/-- The second loop of `#validateRestoredSnapshot`: an accepted decision has its entry. -/
def validateRestoredDecision (record : StoredProposalDecision Operation Rejection) : Result ε Unit :=
  match record.decision with
  | .rejected _ _ => .ok ()
  | .accepted _ sequence _ =>
      match element? server.log (sequence - 1) with
      | some entry => do
          throwIf (entry.operationId ≠ record.identity.operationId)
            (.syncEngineError (s!"accepted decision {record.identity.operationId} " ++
              "has no matching canonical entry"))
          assertIdentityMatchesEntry record.identity entry
      | none =>
          .error (.syncEngineError (s!"accepted decision {record.identity.operationId} " ++
            "has no matching canonical entry"))

def validateRestoredSnapshot : Result ε Unit := do
  server.log.forM server.validateRestoredEntry
  server.decisionsByOperationId.values.forM server.validateRestoredDecision

def restore (options : InMemoryLogServerOptions State Intent Operation Rejection ε)
    (snapshot : LogServerSnapshot State Operation Rejection) :
    Result ε (LogServerSettings State Intent Operation Rejection ε ×
      InMemoryLogServer State Operation Rejection) := do
  let limits ← resolveProtocolLimits options.limits
  assertContiguousLog snapshot.log
  let bare : InMemoryLogServer State Operation Rejection :=
    { initial snapshot.materializedState with log := snapshot.log }
  let server ← snapshot.decisions.foldlM restoreDecision bare
  server.validateRestoredSnapshot
  return ({ interpreter := options.interpreter, limits }, server)

/-! ### Runs that restart the server -/

/-- What happens to a server over its life: a request, or a restart from its own snapshot. -/
inductive Event (Intent : Type) where
  | synchronize (request : SyncRequest Intent)
  | restart

def Event.request? : Event Intent → Option (SyncRequest Intent)
  | .synchronize request => some request
  | .restart => none

variable (settings : LogServerSettings State Intent Operation Rejection ε)

def answer (request : SyncRequest Intent) : Result ε (SyncResponse Operation Rejection) :=
  Prod.fst <$> synchronize settings server request

def answers (server : InMemoryLogServer State Operation Rejection) :
    List (SyncRequest Intent) → List (Result ε (SyncResponse Operation Rejection))
  | [] => []
  | request :: requests =>
      answer server settings request :: answers (afterSynchronize settings server request) requests

/-- A life of the server: the answers to its requests, and the server it ends with. It throws when a
restart does. -/
def live (options : InMemoryLogServerOptions State Intent Operation Rejection ε)
    (settings : LogServerSettings State Intent Operation Rejection ε)
    (server : InMemoryLogServer State Operation Rejection) : List (Event Intent) →
    Result ε (List (Result ε (SyncResponse Operation Rejection)) ×
      LogServerSettings State Intent Operation Rejection ε × InMemoryLogServer State Operation Rejection)
  | [] => .ok ([], settings, server)
  | .synchronize request :: events => do
      let (rest, last) ← live options settings (afterSynchronize settings server request) events
      return (answer server settings request :: rest, last)
  | .restart :: events => do
      let (settings, server) ← restore options server.snapshot
      live options settings server events

/-- Two servers that no sequence of further requests, and nothing readable after it, tells apart. -/
structure ObservablyEqual (left right : InMemoryLogServer State Operation Rejection) : Prop where
  answers : ∀ requests, left.answers settings requests = right.answers settings requests
  headSequence : ∀ requests,
    (run settings left requests).headSequence = (run settings right requests).headSequence
  committedLog : ∀ requests, (run settings left requests).log = (run settings right requests).log
  materializedState : ∀ requests,
    (run settings left requests).state = (run settings right requests).state
  getDecision : ∀ requests operationId, (run settings left requests).getDecision operationId =
    (run settings right requests).getDecision operationId
  snapshot : ∀ requests,
    (run settings left requests).snapshot = (run settings right requests).snapshot

end InMemoryLogServer

end SyncEngine
