import SyncEngine.Model.Invariants

/-!
# The client replica

The pure reducers of `replica.ts`: enqueueing, compaction, request preparation and the three passes of
`mergeSyncResponse` over decisions, entries and the remaining receipts.
-/

namespace SyncEngine

open JavaScript Throwing

variable {State Intent Operation Rejection ε : Type}

/-- Accepted entries stay in the outbox until their canonical entry joins the confirmed prefix. -/
inductive OutboxEntry (Intent Operation : Type) where
  | pending (proposal : ProposedOperation Intent)
  | accepted (proposal : ProposedOperation Intent) (sequence : Int) (operation : Operation)
  deriving DecidableEq

namespace OutboxEntry

def proposal : OutboxEntry Intent Operation → ProposedOperation Intent
  | .pending proposal => proposal
  | .accepted proposal _ _ => proposal

def operationId (entry : OutboxEntry Intent Operation) : String := entry.proposal.operationId

@[simp] theorem proposal_pending (proposal : ProposedOperation Intent) :
    (pending proposal : OutboxEntry Intent Operation).proposal = proposal := rfl

@[simp] theorem proposal_accepted (proposal : ProposedOperation Intent) (sequence : Int)
    (operation : Operation) : (accepted proposal sequence operation).proposal = proposal := rfl

@[simp] theorem operationId_pending (proposal : ProposedOperation Intent) :
    (pending proposal : OutboxEntry Intent Operation).operationId = proposal.operationId := rfl

@[simp] theorem operationId_accepted (proposal : ProposedOperation Intent) (sequence : Int)
    (operation : Operation) :
    (accepted proposal sequence operation).operationId = proposal.operationId := rfl

end OutboxEntry

structure ReplicaState (State Intent Operation : Type) where
  clientId : String
  nextClientSequence : Int
  /-- Highest canonical sequence represented by `confirmedState`. -/
  confirmedSequence : Int
  confirmedState : State
  /-- Retained suffix of the confirmed canonical log, ending at `confirmedSequence`. -/
  confirmedLog : List (CommittedOperation Operation)
  outbox : List (OutboxEntry Intent Operation)

/-- The application's side of a replica. The two apply functions may throw. -/
structure ReplicaInterpreter (State Intent Operation ε : Type) where
  applyCommitted : State → Operation → Except ε State
  applyOptimistic : State → Intent → Except ε State
  areCommittedOperationsEqual : Operation → Operation → Bool

structure CreateReplicaOptions (State : Type) where
  clientId : String
  initialState : State
  nextClientSequence : Option Int := none

structure EnqueueOperationInput (Intent : Type) where
  operationId : String
  intentHash : String
  intent : Intent

structure PrepareSyncRequestOptions where
  maximumProposals : Option Int := none
  maximumEntries : Option Int := none

structure MergeSyncResult (State Intent Operation Rejection : Type) where
  state : ReplicaState State Intent Operation
  newlyResolved : List (ProposalDecision Operation Rejection)
  caughtUpToObservedHead : Bool

def createReplicaState (options : CreateReplicaOptions State) :
    Result ε (ReplicaState State Intent Operation) := do
  assertNonEmptyString "clientId" options.clientId
  let nextClientSequence := options.nextClientSequence.getD 1
  assertClientSequence "nextClientSequence" nextClientSequence
  return {
    clientId := options.clientId
    nextClientSequence := nextClientSequence
    confirmedSequence := 0
    confirmedState := options.initialState
    confirmedLog := []
    outbox := [] }

/-- The loop of `assertRetainedConfirmedLog`. Lists have no holes, so no entry can be missing. -/
def assertSequencesFrom (expectedSequence : Int) : List (CommittedOperation Operation) → Result ε Unit
  | [] => .ok ()
  | entry :: entries => do
      throwIf (entry.sequence ≠ expectedSequence) (.logGapError expectedSequence entry.sequence)
      assertSequencesFrom (expectedSequence + 1) entries

/-- The sequence below the retained log, once the log is known to be contiguous up to the cursor. -/
def assertRetainedConfirmedLog (state : ReplicaState State Intent Operation) : Result ε Int := do
  assertLogSequence "confirmedSequence" state.confirmedSequence true
  let retainedBaseSequence := state.confirmedSequence - state.confirmedLog.length
  throwIf (retainedBaseSequence < 0)
    (.syncEngineError "confirmedLog cannot contain more entries than confirmedSequence")
  assertSequencesFrom (retainedBaseSequence + 1) state.confirmedLog
  return retainedBaseSequence

def enqueueOperation (state : ReplicaState State Intent Operation)
    (input : EnqueueOperationInput Intent) : Result ε (ReplicaState State Intent Operation) := do
  assertNonEmptyString "clientId" state.clientId
  assertClientSequence "nextClientSequence" state.nextClientSequence
  assertClientSequence "nextClientSequence" (state.nextClientSequence + 1)
  assertNonEmptyString "operationId" input.operationId
  assertNonEmptyString "intentHash" input.intentHash
  let _ ← assertRetainedConfirmedLog state
  throwIf ((∃ entry ∈ state.confirmedLog, entry.operationId = input.operationId) ∨
      ∃ entry ∈ state.outbox, entry.operationId = input.operationId)
    (.duplicateOperationIdError input.operationId)
  let proposal : ProposedOperation Intent := {
    operationId := input.operationId
    clientId := state.clientId
    clientSequence := state.nextClientSequence
    intentHash := input.intentHash
    intent := input.intent }
  return { state with
    nextClientSequence := state.nextClientSequence + 1
    outbox := state.outbox ++ [.pending proposal] }

def deleteCommittedLogPrefix (state : ReplicaState State Intent Operation) (throughSequence : Int) :
    Result ε (ReplicaState State Intent Operation) := do
  assertLogSequence "throughSequence" throughSequence true
  let retainedBaseSequence ← assertRetainedConfirmedLog state
  throwIf (throughSequence > state.confirmedSequence)
    (.logGapError (state.confirmedSequence + 1) throughSequence)
  if throughSequence ≤ retainedBaseSequence then
    return state
  else
    return { state with
      confirmedLog := sliceFrom state.confirmedLog (throughSequence - retainedBaseSequence) }

/-! ### Preparing a request -/

/-- The loop of `prepareSyncRequest`: collect pending proposals until the batch is full. -/
def collectPending (maximumProposals : Int) :
    List (OutboxEntry Intent Operation) → List (ProposedOperation Intent) →
      List (ProposedOperation Intent)
  | [], proposals => proposals
  | .accepted _ _ _ :: outbox, proposals => collectPending maximumProposals outbox proposals
  | .pending proposal :: outbox, proposals =>
      if ((proposals ++ [proposal]).length : Int) ≥ maximumProposals then proposals ++ [proposal]
      else collectPending maximumProposals outbox (proposals ++ [proposal])

def prepareSyncRequest (state : ReplicaState State Intent Operation)
    (options : PrepareSyncRequestOptions) : Result ε (SyncRequest Intent) := do
  let _ ← assertRetainedConfirmedLog state
  let maximumProposals :=
    options.maximumProposals.getD defaultProtocolLimits.maximumProposalsPerRequest
  let maximumEntries :=
    options.maximumEntries.getD defaultProtocolLimits.maximumEntriesPerResponse
  assertNonNegativeSafeInteger "maximumProposals" maximumProposals
  assertPositiveSafeInteger "maximumEntries" maximumEntries
  return {
    baseSequence := state.confirmedSequence
    maximumEntries := maximumEntries
    proposals :=
      if maximumProposals = 0 then [] else collectPending maximumProposals state.outbox [] }

/-! ### Merging a response -/

section Merge

variable (interpreter : ReplicaInterpreter State Intent Operation ε)

def operationsAreEqual (left right : Operation) : Bool :=
  interpreter.areCommittedOperationsEqual left right

/-- The outbox and the list of new decisions that the passes of a merge thread. -/
structure MergeOutbox (Intent Operation Rejection : Type) where
  outbox : List (OutboxEntry Intent Operation)
  newlyResolved : List (ProposalDecision Operation Rejection)

/-- The body of the decision loop once the outbox entry is found. -/
def mergeDecisionInto (current : MergeOutbox Intent Operation Rejection) (index : Nat) :
    OutboxEntry Intent Operation → ProposalDecision Operation Rejection →
      Result ε (MergeOutbox Intent Operation Rejection)
  | .accepted _ _ _, .rejected operationId _ => .error (.decisionConflictError operationId)
  | .pending _, .rejected operationId reason =>
      .ok {
        outbox := current.outbox.eraseIdx index
        newlyResolved := current.newlyResolved ++ [.rejected operationId reason] }
  | .accepted _ localSequence localOperation, .accepted operationId sequence operation => do
      throwIf (localSequence ≠ sequence ∨
          operationsAreEqual interpreter localOperation operation = false)
        (.decisionConflictError operationId)
      return current
  | .pending proposal, .accepted operationId sequence operation =>
      .ok {
        outbox := current.outbox.set index (.accepted proposal sequence operation)
        newlyResolved := current.newlyResolved ++ [.accepted operationId sequence operation] }

def mergeDecision (current : MergeOutbox Intent Operation Rejection)
    (decision : ProposalDecision Operation Rejection) :
    Result ε (MergeOutbox Intent Operation Rejection) :=
  match current.outbox.findIdx? fun entry => entry.operationId = decision.operationId with
  | none => .ok current
  | some index =>
      match current.outbox[index]? with
      | none => .error (.syncEngineError "outbox index disappeared during decision merge")
      | some entry => mergeDecisionInto interpreter current index entry decision

def proposalDifference (proposal : ProposedOperation Intent)
    (committed : CommittedOperation Operation) : Option String :=
  if proposal.operationId ≠ committed.operationId then some "operationId differs"
  else if proposal.clientId ≠ committed.origin.clientId then some "origin clientId differs"
  else if proposal.clientSequence ≠ committed.origin.clientSequence then
    some "origin clientSequence differs"
  else if proposal.intentHash ≠ committed.origin.intentHash then some "origin intentHash differs"
  else none

def assertProposalMatchesCommitted (proposal : ProposedOperation Intent)
    (committed : CommittedOperation Operation) : Result ε Unit :=
  match proposalDifference proposal committed with
  | some detail =>
      .error (.logDivergenceError committed.sequence proposal.operationId committed.operationId
        detail)
  | none => .ok ()

def committedMetadataDifference (expected received : CommittedOperation Operation) :
    Option String :=
  if expected.operationId ≠ received.operationId then some "operationId differs"
  else if expected.origin.clientId ≠ received.origin.clientId then some "origin clientId differs"
  else if expected.origin.clientSequence ≠ received.origin.clientSequence then
    some "origin clientSequence differs"
  else if expected.origin.intentHash ≠ received.origin.intentHash then
    some "origin intentHash differs"
  else none

def assertSameCommittedPosition (expected received : CommittedOperation Operation) :
    Result ε Unit :=
  let detail := committedMetadataDifference expected received
  throwIf (detail ≠ none ∨
      operationsAreEqual interpreter expected.operation received.operation = false)
    (.logDivergenceError received.sequence expected.operationId received.operationId
      (detail.getD "canonical operation payload differs"))

/-- The checks and the notification of `resolveOutboxFromCommitted` for the entry it removes. -/
def resolveEntry (committed : CommittedOperation Operation) :
    OutboxEntry Intent Operation → Result ε (List (ProposalDecision Operation Rejection))
  | .accepted proposal sequence operation => do
      assertProposalMatchesCommitted proposal committed
      throwIf (sequence ≠ committed.sequence ∨
          operationsAreEqual interpreter operation committed.operation = false)
        (.decisionConflictError committed.operationId)
      return []
  | .pending proposal => do
      assertProposalMatchesCommitted proposal committed
      return [.accepted committed.operationId committed.sequence committed.operation]

def resolveOutboxFromCommitted (current : MergeOutbox Intent Operation Rejection)
    (committed : CommittedOperation Operation) :
    Result ε (MergeOutbox Intent Operation Rejection) :=
  match current.outbox.findIdx? fun entry => entry.operationId = committed.operationId with
  | none => .ok current
  | some index =>
      match current.outbox[index]? with
      | none => .error (.syncEngineError "outbox index disappeared during log merge")
      | some entry => do
          let learnedFromLog ← resolveEntry interpreter committed entry
          return {
            outbox := current.outbox.eraseIdx index
            newlyResolved := current.newlyResolved ++ learnedFromLog }

/-- What the entry loop of `mergeSyncResponse` threads. -/
structure MergeProgress (State Intent Operation Rejection : Type) extends
    MergeOutbox Intent Operation Rejection where
  confirmedSequence : Int
  confirmedLog : List (CommittedOperation Operation)
  confirmedState : State

def mergeEntry (retainedBaseSequence : Int)
    (progress : MergeProgress State Intent Operation Rejection)
    (received : CommittedOperation Operation) :
    Result ε (MergeProgress State Intent Operation Rejection) :=
  if received.sequence ≤ retainedBaseSequence then .ok progress
  else if received.sequence ≤ progress.confirmedSequence then
    match element? progress.confirmedLog (received.sequence - retainedBaseSequence - 1) with
    | none => .error (.logGapError (progress.confirmedSequence + 1) received.sequence)
    | some existing => do
        assertSameCommittedPosition interpreter existing received
        let resolved ← resolveOutboxFromCommitted interpreter progress.toMergeOutbox received
        return { progress with toMergeOutbox := resolved }
  else do
    let expectedSequence := progress.confirmedSequence + 1
    throwIf (received.sequence ≠ expectedSequence)
      (.logGapError expectedSequence received.sequence)
    let confirmedState ←
      application (interpreter.applyCommitted progress.confirmedState received.operation)
    let resolved ← resolveOutboxFromCommitted interpreter progress.toMergeOutbox received
    return {
      toMergeOutbox := resolved
      confirmedSequence := received.sequence
      confirmedLog := progress.confirmedLog ++ [received]
      confirmedState := confirmedState }

/-- The predicate of the final filter: keep an entry, or check it against the log and drop it. -/
def keepAfterReconciliation (retainedBaseSequence confirmedSequence : Int)
    (confirmedLog : List (CommittedOperation Operation)) :
    OutboxEntry Intent Operation → Result ε Bool
  | .pending _ => .ok true
  | .accepted proposal sequence operation =>
      if sequence > confirmedSequence then .ok true
      else do
        throwIf (sequence ≤ retainedBaseSequence)
          (.syncEngineError
            (s!"accepted outbox entry {stringify proposal.operationId} " ++
              s!"refers to compacted canonical sequence {sequence}"))
        match element? confirmedLog (sequence - retainedBaseSequence - 1) with
        | none => .error (.logGapError sequence (confirmedSequence + 1))
        | some committed => do
            assertProposalMatchesCommitted proposal committed
            throwIf (operationsAreEqual interpreter operation committed.operation = false)
              (.decisionConflictError committed.operationId)
            return false

/-- The final filter, whose predicate may throw. -/
def reconcileOutbox (retainedBaseSequence confirmedSequence : Int)
    (confirmedLog : List (CommittedOperation Operation)) :
    List (OutboxEntry Intent Operation) → Result ε (List (OutboxEntry Intent Operation))
  | [] => .ok []
  | entry :: outbox => do
      let keep ← keepAfterReconciliation interpreter retainedBaseSequence confirmedSequence
        confirmedLog entry
      let rest ← reconcileOutbox retainedBaseSequence confirmedSequence confirmedLog outbox
      return if keep then entry :: rest else rest

def mergeSyncResponse (state : ReplicaState State Intent Operation)
    (response : SyncResponse Operation Rejection) :
    Result ε (MergeSyncResult State Intent Operation Rejection) := do
  assertSyncResponse response none
  let retainedBaseSequence ← assertRetainedConfirmedLog state
  throwIf (response.requestedBaseSequence > state.confirmedSequence)
    (.logGapError (state.confirmedSequence + 1) (response.requestedBaseSequence + 1))
  let decided ← response.decisions.foldlM (mergeDecision interpreter)
    { outbox := state.outbox, newlyResolved := [] }
  let progress ← response.entries.foldlM (mergeEntry interpreter retainedBaseSequence)
    { toMergeOutbox := decided
      confirmedSequence := state.confirmedSequence
      confirmedLog := state.confirmedLog
      confirmedState := state.confirmedState }
  let outbox ← reconcileOutbox interpreter retainedBaseSequence progress.confirmedSequence
    progress.confirmedLog progress.outbox
  return {
    state := { state with
      confirmedSequence := progress.confirmedSequence
      confirmedState := progress.confirmedState
      confirmedLog := progress.confirmedLog
      outbox := outbox }
    newlyResolved := progress.newlyResolved
    caughtUpToObservedHead := progress.confirmedSequence ≥ response.headSequence }

/-- One outbox entry of the optimistic overlay. -/
def overlayEntry (state : State) : OutboxEntry Intent Operation → Except ε State
  | .pending proposal => interpreter.applyOptimistic state proposal.intent
  | .accepted _ _ operation => interpreter.applyCommitted state operation

def materializeOptimisticState (state : ReplicaState State Intent Operation) : Except ε State :=
  state.outbox.foldlM (overlayEntry interpreter) state.confirmedState

end Merge

end SyncEngine
