import SyncEngine.Model.Invariants

/-!
# The in-memory authority

`InMemoryLogServer` of `server.ts`: `synchronize` decides a batch on a staged copy of its indexes and
publishes the copy only when the response has passed its own validation. The mutable fields are the
record `InMemoryLogServer`; the readonly ones are `LogServerSettings`. A call that throws has not
touched the fields, which `InMemoryLogServer.afterSynchronize` spells out.
-/

namespace SyncEngine

open JavaScript Throwing

variable {State Intent Operation Rejection ε : Type}

/-- The application's side of the authority. Either function may throw. -/
structure LogInterpreter (State Intent Operation Rejection ε : Type) where
  decide : State → ProposedOperation Intent → Except ε (DecisionDraft Operation Rejection)
  apply : State → Operation → Except ε State

structure StoredProposalDecision (Operation Rejection : Type) where
  identity : OperationSubmissionIdentity
  decision : ProposalDecision Operation Rejection
  deriving DecidableEq

structure InMemoryLogServerOptions (State Intent Operation Rejection ε : Type) where
  initialState : State
  interpreter : LogInterpreter State Intent Operation Rejection ε
  limits : ProtocolLimitOverrides

structure LogServerSettings (State Intent Operation Rejection ε : Type) where
  interpreter : LogInterpreter State Intent Operation Rejection ε
  limits : ProtocolLimits

structure InMemoryLogServer (State Operation Rejection : Type) where
  state : State
  log : List (CommittedOperation Operation)
  decisionsByOperationId : InsertionMap String (StoredProposalDecision Operation Rejection)
  operationIdByClientPosition : InsertionMap String String

structure StagedServerTransition (State Operation Rejection : Type) where
  state : State
  entries : List (CommittedOperation Operation)
  decisionsByOperationId : InsertionMap String (StoredProposalDecision Operation Rejection)
  operationIdByClientPosition : InsertionMap String String

def OperationIdentity.clientPositionKey (identity : OperationIdentity) : String :=
  SyncEngine.clientPositionKey identity.clientId identity.clientSequence

def sameOperationIdentity (left right : OperationIdentity) : Bool :=
  left.operationId = right.operationId && left.clientId = right.clientId &&
    left.clientSequence = right.clientSequence

namespace InMemoryLogServer

def initial (initialState : State) : InMemoryLogServer State Operation Rejection where
  state := initialState
  log := []
  decisionsByOperationId := InsertionMap.empty
  operationIdByClientPosition := InsertionMap.empty

def create (options : InMemoryLogServerOptions State Intent Operation Rejection ε) :
    Result ε (LogServerSettings State Intent Operation Rejection ε ×
      InMemoryLogServer State Operation Rejection) := do
  let limits ← resolveProtocolLimits options.limits
  return ({ interpreter := options.interpreter, limits }, initial options.initialState)

variable (server : InMemoryLogServer State Operation Rejection)

def headSequence : Int := server.log.length

def getDecision (operationId : String) : Option (ProposalDecision Operation Rejection) :=
  (server.decisionsByOperationId.get? operationId).map StoredProposalDecision.decision

end InMemoryLogServer

def createStoredDecision (identity : OperationSubmissionIdentity)
    (decision : ProposalDecision Operation Rejection) : StoredProposalDecision Operation Rejection where
  identity := identity
  decision := decision

def StagedServerTransition.stageDecision (staged : StagedServerTransition State Operation Rejection)
    (identity : OperationSubmissionIdentity) (decision : ProposalDecision Operation Rejection) :
    StagedServerTransition State Operation Rejection :=
  { staged with
    decisionsByOperationId :=
      staged.decisionsByOperationId.set identity.operationId (createStoredDecision identity decision)
    operationIdByClientPosition :=
      staged.operationIdByClientPosition.set identity.clientPositionKey identity.operationId }

/-- The canonical entry a proposal turns into once it is accepted at a sequence. -/
def ProposedOperation.committedAt (proposal : ProposedOperation Intent) (sequence : Int)
    (operation : Operation) : CommittedOperation Operation where
  sequence := sequence
  operationId := proposal.operationId
  origin := {
    clientId := proposal.clientId
    clientSequence := proposal.clientSequence
    intentHash := proposal.intentHash }
  operation := operation

namespace InMemoryLogServer

variable (settings : LogServerSettings State Intent Operation Rejection ε)
  (server : InMemoryLogServer State Operation Rejection)

/-- `#processProposal` for an operation that already has a decision. -/
def replayDecision (existing : StoredProposalDecision Operation Rejection)
    (proposal : ProposedOperation Intent) : Result ε (ProposalDecision Operation Rejection) := do
  throwIf (sameOperationIdentity existing.identity.toOperationIdentity
      proposal.toOperationIdentity = false)
    (.operationIdentityConflictError proposal.operationId)
  throwIf (existing.identity.intentHash ≠ proposal.intentHash)
    (.operationIntentConflictError proposal.operationId)
  return existing.decision

def assertClientPositionFree (existingOperationId : Option String)
    (proposal : ProposedOperation Intent) : Result ε Unit :=
  match existingOperationId with
  | some existingOperationId =>
      throwIf (existingOperationId ≠ proposal.operationId)
        (.clientSequenceConflictError proposal.clientId proposal.clientSequence
          existingOperationId proposal.operationId)
  | none => .ok ()

/-- `#processProposal` for an operation without a decision: decide it against the staged state. -/
def decideProposal (proposal : ProposedOperation Intent)
    (staged : StagedServerTransition State Operation Rejection) :
    Result ε (ProposalDecision Operation Rejection ×
      StagedServerTransition State Operation Rejection) := do
  match ← application (settings.interpreter.decide staged.state proposal) with
  | .rejected reason =>
      let decision := .rejected proposal.operationId reason
      return (decision, staged.stageDecision proposal.toOperationSubmissionIdentity decision)
  | .accepted operation =>
      let sequence : Int := server.log.length + staged.entries.length + 1
      let entry := proposal.committedAt sequence operation
      let nextState ← application (settings.interpreter.apply staged.state operation)
      let decision := .accepted proposal.operationId sequence operation
      return (decision,
        { staged with state := nextState, entries := staged.entries ++ [entry] }.stageDecision
          proposal.toOperationSubmissionIdentity decision)

def processProposal (proposal : ProposedOperation Intent)
    (staged : StagedServerTransition State Operation Rejection) :
    Result ε (ProposalDecision Operation Rejection ×
      StagedServerTransition State Operation Rejection) :=
  match (staged.decisionsByOperationId.get? proposal.operationId).or
      (server.decisionsByOperationId.get? proposal.operationId) with
  | some existing => do return (← replayDecision existing proposal, staged)
  | none => do
      let positionKey := proposal.clientPositionKey
      assertClientPositionFree ((staged.operationIdByClientPosition.get? positionKey).or
        (server.operationIdByClientPosition.get? positionKey)) proposal
      decideProposal settings server proposal staged

/-- `request.proposals.map` with the staged transition it mutates. -/
def processProposals : List (ProposedOperation Intent) →
    StagedServerTransition State Operation Rejection →
    Result ε (List (ProposalDecision Operation Rejection) ×
      StagedServerTransition State Operation Rejection)
  | [], staged => .ok ([], staged)
  | proposal :: proposals, staged => do
      let (decision, staged) ← processProposal settings server proposal staged
      let (decisions, staged) ← processProposals proposals staged
      return (decision :: decisions, staged)

/-- The empty staged transition of a call. -/
def stage : StagedServerTransition State Operation Rejection where
  state := server.state
  entries := []
  decisionsByOperationId := InsertionMap.empty
  operationIdByClientPosition := InsertionMap.empty

def publish (staged : StagedServerTransition State Operation Rejection) :
    InMemoryLogServer State Operation Rejection where
  state := staged.state
  log := server.log ++ staged.entries
  decisionsByOperationId :=
    server.decisionsByOperationId.setAll staged.decisionsByOperationId.entries
  operationIdByClientPosition :=
    server.operationIdByClientPosition.setAll staged.operationIdByClientPosition.entries

def respond (limits : ProtocolLimits) (nextLog : List (CommittedOperation Operation))
    (request : SyncRequest Intent) (decisions : List (ProposalDecision Operation Rejection)) :
    SyncResponse Operation Rejection :=
  let pageSize := min request.maximumEntries limits.maximumEntriesPerResponse
  let entries := slice nextLog request.baseSequence (request.baseSequence + pageSize)
  { requestedBaseSequence := request.baseSequence
    throughSequence := request.baseSequence + entries.length
    headSequence := nextLog.length
    entries := entries
    decisions := decisions }

def synchronize (request : SyncRequest Intent) :
    Result ε (SyncResponse Operation Rejection × InMemoryLogServer State Operation Rejection) := do
  assertSyncRequest request (some settings.limits)
  throwIf (request.baseSequence > server.headSequence)
    (.unknownBaseSequenceError request.baseSequence server.headSequence)
  let (decisions, staged) ← processProposals settings server request.proposals server.stage
  let response := respond settings.limits (server.log ++ staged.entries) request decisions
  assertSyncResponse response (some settings.limits)
  return (response, server.publish staged)

def afterSynchronize (request : SyncRequest Intent) : InMemoryLogServer State Operation Rejection :=
  match synchronize settings server request with
  | .ok (_, next) => next
  | .error _ => server

def run (server : InMemoryLogServer State Operation Rejection) (requests : List (SyncRequest Intent)) :
    InMemoryLogServer State Operation Rejection :=
  requests.foldl (afterSynchronize settings) server

end InMemoryLogServer

end SyncEngine
