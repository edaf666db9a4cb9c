import SyncEngine.Lib.Program
import SyncEngine.Model.Server
import Mathlib.Data.List.Sort

/-!
# The D1 authority

`synchronizeOnce` of `next/d1.ts` and the retry loop around it, over the three tables of
`initializeD1SyncTables` with their constraints. A statement is one atomic call and so is a batch,
which is rolled back as a whole when one of its statements violates a constraint. The statements are
prepared by the adapter of `next/d1-correctness.ts`, which guards the update of the stream. There is
no projection to application tables here, so the adapter's projection errors cannot occur.
-/

namespace SyncEngine

open JavaScript Throwing

variable {State Intent Operation Rejection ε : Type}

/-! ### Tables -/

structure D1StreamRow where
  streamId : String
  schemaHash : String
  headSequence : Int
  materializedStateJson : String
  deriving DecidableEq

@[ext] structure D1LogEntryRow where
  streamId : String
  sequence : Int
  operationId : String
  clientId : String
  clientSequence : Int
  intentHash : String
  operationJson : String
  deriving DecidableEq

structure D1DecisionRow where
  streamId : String
  operationId : String
  clientId : String
  clientSequence : Int
  intentHash : String
  status : String
  sequence : Option Int
  operationJson : Option String
  reasonJson : Option String
  deriving DecidableEq

structure D1Tables where
  streams : List D1StreamRow
  logEntries : List D1LogEntryRow
  decisions : List D1DecisionRow
  deriving DecidableEq

inductive SqliteConstraint where
  | unique
  | check
  | notNull
  deriving DecidableEq

def SqliteConstraint.message : SqliteConstraint → String
  | unique => "UNIQUE constraint failed"
  | check => "CHECK constraint failed"
  | notNull => "NOT NULL constraint failed"

inductive D1Write where
  | insertDecision (row : D1DecisionRow)
  | insertLogEntry (row : D1LogEntryRow)
  /-- `UPDATE … WHERE stream_id = ? AND head_sequence = ?`. -/
  | updateStreamState (headSequence : Int) (materializedStateJson streamId : String)
      (previousHeadSequence : Int)
  /-- The same update as `guardStreamCommitQuery` rewrites it: another head becomes `NULL`. -/
  | guardedUpdateStreamState (headSequence : Int) (materializedStateJson streamId : String)
      (previousHeadSequence : Int)
  deriving DecidableEq

def guardStreamCommitQuery : D1Write → D1Write
  | .updateStreamState headSequence materializedStateJson streamId previousHeadSequence =>
      .guardedUpdateStreamState headSequence materializedStateJson streamId previousHeadSequence
  | statement => statement

/-- The `CHECK` constraints of the decision table. -/
def D1DecisionRow.Allowed (row : D1DecisionRow) : Prop :=
  (row.status = "accepted" ∧ row.sequence.isSome ∧ row.operationJson.isSome ∧ row.reasonJson = none) ∨
    (row.status = "rejected" ∧ row.sequence = none ∧ row.operationJson = none ∧ row.reasonJson.isSome)

instance (row : D1DecisionRow) : Decidable row.Allowed :=
  inferInstanceAs (Decidable (_ ∨ _))

namespace D1Tables

def insertDecision (tables : D1Tables) (row : D1DecisionRow) : Except SqliteConstraint D1Tables := do
  throwIf (∃ stored ∈ tables.decisions,
    stored.streamId = row.streamId ∧ stored.operationId = row.operationId) .unique
  throwIf (∃ stored ∈ tables.decisions, stored.streamId = row.streamId ∧
    stored.clientId = row.clientId ∧ stored.clientSequence = row.clientSequence) .unique
  throwIf (¬row.Allowed) .check
  return { tables with decisions := tables.decisions ++ [row] }

def insertLogEntry (tables : D1Tables) (row : D1LogEntryRow) : Except SqliteConstraint D1Tables := do
  throwIf (∃ stored ∈ tables.logEntries,
    stored.streamId = row.streamId ∧ stored.sequence = row.sequence) .unique
  throwIf (∃ stored ∈ tables.logEntries,
    stored.streamId = row.streamId ∧ stored.operationId = row.operationId) .unique
  throwIf (∃ stored ∈ tables.logEntries, stored.streamId = row.streamId ∧
    stored.clientId = row.clientId ∧ stored.clientSequence = row.clientSequence) .unique
  return { tables with logEntries := tables.logEntries ++ [row] }

def updateStreams (tables : D1Tables) (selects : D1StreamRow → Bool) (headSequence : Int)
    (materializedStateJson : String) : D1Tables :=
  { tables with
    streams := tables.streams.map fun row =>
      if selects row then { row with headSequence, materializedStateJson } else row }

def execute (tables : D1Tables) : D1Write → Except SqliteConstraint (Nat × D1Tables)
  | .insertDecision row => do return (1, ← tables.insertDecision row)
  | .insertLogEntry row => do return (1, ← tables.insertLogEntry row)
  | .updateStreamState headSequence materializedStateJson streamId previousHeadSequence =>
      let selects (row : D1StreamRow) : Bool :=
        row.streamId = streamId && row.headSequence = previousHeadSequence
      .ok (tables.streams.countP selects,
        tables.updateStreams selects headSequence materializedStateJson)
  | .guardedUpdateStreamState headSequence materializedStateJson streamId previousHeadSequence => do
      let selects (row : D1StreamRow) : Bool := row.streamId = streamId
      throwIf (∃ row ∈ tables.streams, row.streamId = streamId ∧
        row.headSequence ≠ previousHeadSequence) .notNull
      return (tables.streams.countP selects,
        tables.updateStreams selects headSequence materializedStateJson)

def executeAll (tables : D1Tables) : List D1Write → Except SqliteConstraint (List Nat × D1Tables)
  | [] => .ok ([], tables)
  | statement :: statements => do
      let (changes, tables) ← tables.execute statement
      let (rest, tables) ← tables.executeAll statements
      return (changes :: rest, tables)

end D1Tables

/-! ### Calls -/

inductive D1Call where
  /-- `INSERT OR IGNORE` of the stream, at head zero. -/
  | insertStream (streamId schemaHash materializedStateJson : String)
  | selectStream (streamId : String)
  | selectDecision (streamId operationId : String)
  | selectClientPosition (streamId clientId : String) (clientSequence : Int)
  /-- `sequence > ? AND sequence <= ? ORDER BY sequence ASC LIMIT ?`. -/
  | selectLogPage (streamId : String) (baseSequence headSequence maximumEntries : Int)
  | batch (statements : List D1Write)

def D1Interface : Interface where
  Call := D1Call
  Answer
    | .insertStream _ _ _ => Unit
    | .selectStream _ => Option D1StreamRow
    | .selectDecision _ _ => Option D1DecisionRow
    | .selectClientPosition _ _ _ => Option String
    | .selectLogPage _ _ _ _ => List D1LogEntryRow
    | .batch _ => Except SqliteConstraint (List Nat)

namespace D1Tables

def insertStream (tables : D1Tables) (streamId schemaHash materializedStateJson : String) : D1Tables :=
  if ∃ row ∈ tables.streams, row.streamId = streamId then tables
  else { tables with
    streams := tables.streams ++ [{ streamId, schemaHash, headSequence := 0, materializedStateJson }] }

def selectLogPage (tables : D1Tables) (streamId : String)
    (baseSequence headSequence maximumEntries : Int) : List D1LogEntryRow :=
  let rows := (tables.logEntries.filter fun row => row.streamId = streamId ∧
    row.sequence > baseSequence ∧ row.sequence ≤ headSequence).insertionSort
      fun left right => left.sequence ≤ right.sequence
  if maximumEntries < 0 then rows else rows.take maximumEntries.toNat

/-- A batch is all or nothing. -/
def batch (tables : D1Tables) (statements : List D1Write) :
    Except SqliteConstraint (List Nat) × D1Tables :=
  match tables.executeAll statements with
  | .ok (changes, next) => (.ok changes, next)
  | .error constraint => (.error constraint, tables)

def answer : Handler D1Interface D1Tables
  | .insertStream streamId schemaHash materializedStateJson, tables =>
      ((), tables.insertStream streamId schemaHash materializedStateJson)
  | .selectStream streamId, tables => (tables.streams.find? fun row => row.streamId = streamId, tables)
  | .selectDecision streamId operationId, tables =>
      (tables.decisions.find? fun row => row.streamId = streamId ∧ row.operationId = operationId, tables)
  | .selectClientPosition streamId clientId clientSequence, tables =>
      ((tables.decisions.find? fun row => row.streamId = streamId ∧ row.clientId = clientId ∧
        row.clientSequence = clientSequence).map D1DecisionRow.operationId, tables)
  | .selectLogPage streamId baseSequence headSequence maximumEntries, tables =>
      (tables.selectLogPage streamId baseSequence headSequence maximumEntries, tables)
  | .batch statements, tables => tables.batch statements

end D1Tables

/-! ### Errors -/

/-- What a call of the D1 authority can throw: an error of the protocol core, a conflict with another
commit, or a storage failure. -/
inductive D1SyncError (ε : Type) where
  | syncEngineError (error : SyncEngineError ε)
  | d1SyncConflictError
  | d1SyncStorageError (message : String)
  deriving DecidableEq

abbrev D1Program (ε α : Type) := Program D1Interface (D1SyncError ε) α

def protocol {α : Type} : Result ε α → Except (D1SyncError ε) α
  | .ok a => .ok a
  | .error error => .error (.syncEngineError error)

def isRetryableD1CommitConflict : D1SyncError ε → Bool
  | .d1SyncConflictError => true
  | .d1SyncStorageError message =>
      testIgnoreCase ["unique constraint", "constraint failed", "database is locked", "SQLITE_BUSY"]
        message
  | .syncEngineError _ => false

def isUniqueConstraintError (message : String) : Bool :=
  testIgnoreCase ["unique constraint", "constraint failed"] message

def storageOrConflictError (message : String) : D1SyncError ε :=
  if isUniqueConstraintError message then .d1SyncConflictError else .d1SyncStorageError message

/-! ### Reading cells -/

/-- A codec and the JSON text of its values: `serializeJson` and `deserializeJson` for it. -/
structure JsonCodec (Value ε : Type) where
  serializeJson : Value → String
  deserializeJson : String → Except ε Value

/-- What the codec writes is not empty, and it reads back what it wrote. -/
structure JsonCodec.RoundTrips {Value : Type} (codec : JsonCodec Value ε) : Prop where
  nonEmpty : ∀ value, (codec.serializeJson value).length ≠ 0
  inverse : ∀ value, codec.deserializeJson (codec.serializeJson value) = .ok value

def readString (value : Option String) (label : String) : Except (D1SyncError ε) String :=
  match value with
  | some value => do
      throwIf (value.length = 0) (.d1SyncStorageError s!"{label} must be a non-empty string")
      return value
  | none => .error (.d1SyncStorageError s!"{label} must be a non-empty string")

def readInteger (value : Option Int) (label : String) : Except (D1SyncError ε) Int :=
  match value with
  | some value => do
      throwIf (¬IsSafeInteger value) (.d1SyncStorageError s!"{label} must be a safe integer")
      return value
  | none => .error (.d1SyncStorageError s!"{label} must be a safe integer")

def readJson {Value : Type} (value : Option String) (label : String) (codec : JsonCodec Value ε) :
    Except (D1SyncError ε) Value := do
  let text ← readString value label
  protocol (application (codec.deserializeJson text))

def decodeStoredDecision (row : D1DecisionRow) (operationCodec : JsonCodec Operation ε)
    (rejectionCodec : JsonCodec Rejection ε) :
    Except (D1SyncError ε) (ProposalDecision Operation Rejection) := do
  let operationId ← readString row.operationId "decision.operation_id"
  let status ← readString row.status "decision.status"
  if status = "accepted" then
    let sequence ← readInteger row.sequence "decision.sequence"
    let operation ← readJson row.operationJson "decision.operation_json" operationCodec
    return .accepted operationId sequence operation
  else if status = "rejected" then
    let reason ← readJson row.reasonJson "decision.reason_json" rejectionCodec
    return .rejected operationId reason
  else
    throw (.d1SyncStorageError s!"stored decision status {stringify status} is invalid")

def decodeLogEntry (operationCodec : JsonCodec Operation ε) (row : D1LogEntryRow) :
    Except (D1SyncError ε) (CommittedOperation Operation) := do
  let sequence ← readInteger row.sequence "log.sequence"
  let operationId ← readString row.operationId "log.operation_id"
  let clientId ← readString row.clientId "log.client_id"
  let clientSequence ← readInteger row.clientSequence "log.client_sequence"
  let intentHash ← readString row.intentHash "log.intent_hash"
  let operation ← readJson row.operationJson "log.operation_json" operationCodec
  return { sequence, operationId, origin := { clientId, clientSequence, intentHash }, operation }

/-! ### The authority -/

structure CreateD1LogSyncAuthorityOptions (State Intent Operation Rejection ε : Type) where
  streamId : String
  initialState : State
  interpreter : LogInterpreter State Intent Operation Rejection ε
  stateCodec : JsonCodec State ε
  operationCodec : JsonCodec Operation ε
  rejectionCodec : JsonCodec Rejection ε
  schemaHash : Option String := none
  limits : ProtocolLimitOverrides := {}
  maximumCommitRetries : Option Int := none

/-- What all authorities on one stream share. -/
structure D1StreamSettings (State Intent Operation Rejection ε : Type) where
  streamId : String
  schemaHash : String
  initialState : State
  interpreter : LogInterpreter State Intent Operation Rejection ε
  stateCodec : JsonCodec State ε
  operationCodec : JsonCodec Operation ε
  rejectionCodec : JsonCodec Rejection ε

structure D1AuthoritySettings (State Intent Operation Rejection ε : Type) extends
    D1StreamSettings State Intent Operation Rejection ε where
  limits : ProtocolLimits
  maximumCommitRetries : Int

def createD1LogSyncAuthority
    (options : CreateD1LogSyncAuthorityOptions State Intent Operation Rejection ε) :
    Result ε (D1AuthoritySettings State Intent Operation Rejection ε) := do
  let limits ← resolveProtocolLimits options.limits
  return {
    streamId := options.streamId
    schemaHash := options.schemaHash.getD "unversioned"
    initialState := options.initialState
    interpreter := options.interpreter
    stateCodec := options.stateCodec
    operationCodec := options.operationCodec
    rejectionCodec := options.rejectionCodec
    limits := limits
    maximumCommitRetries := options.maximumCommitRetries.getD 4 }

structure StreamRecord (State : Type) where
  headSequence : Int
  state : State

structure D1Staging (State Operation Rejection : Type) where
  headSequence : Int
  state : State
  decisions : List (ProposalDecision Operation Rejection)
  statements : List D1Write

section Authority

variable (stream : D1StreamSettings State Intent Operation Rejection ε)

/-- The checks of `readOrCreateStream` on the row it has selected. -/
def readStreamRecord (row : Option D1StreamRow) : Except (D1SyncError ε) (StreamRecord State) :=
  match row with
  | none => .error (.d1SyncStorageError s!"D1 sync stream {stringify stream.streamId} was not created")
  | some row => do
      let receivedSchemaHash ← readString row.schemaHash "stream.schema_hash"
      throwIf (receivedSchemaHash ≠ stream.schemaHash)
        (.d1SyncStorageError (s!"D1 sync stream {stringify stream.streamId} uses schema " ++
          s!"{stringify receivedSchemaHash}, not {stringify stream.schemaHash}"))
      let headSequence ← readInteger row.headSequence "stream.head_sequence"
      let state ← readJson row.materializedStateJson "stream.materialized_state_json"
        stream.stateCodec
      return { headSequence, state }

def readOrCreateStream : D1Program ε (StreamRecord State) := do
  Program.ask (I := D1Interface) (.insertStream stream.streamId stream.schemaHash
    (stream.stateCodec.serializeJson stream.initialState))
  let row ← Program.ask (I := D1Interface) (.selectStream stream.streamId)
  Program.lift (readStreamRecord stream row)

/-- The checks of `readStoredDecision` on the row it has selected. -/
def decodeDecisionFor (row : Option D1DecisionRow) (proposal : ProposedOperation Intent) :
    Except (D1SyncError ε) (Option (ProposalDecision Operation Rejection)) :=
  match row with
  | none => .ok none
  | some row => do
      let clientId ← readString row.clientId "decision.client_id"
      -- The integer is only read when the client identifiers agree.
      let sameClient ← if clientId ≠ proposal.clientId then pure false else do
        let clientSequence ← readInteger row.clientSequence "decision.client_sequence"
        pure (clientSequence = proposal.clientSequence)
      throwIf (sameClient = false)
        (.syncEngineError (.operationIdentityConflictError proposal.operationId))
      let intentHash ← readString row.intentHash "decision.intent_hash"
      throwIf (intentHash ≠ proposal.intentHash)
        (.syncEngineError (.operationIntentConflictError proposal.operationId))
      let decision ← decodeStoredDecision row stream.operationCodec stream.rejectionCodec
      return some decision

def readStoredDecision (proposal : ProposedOperation Intent) :
    D1Program ε (Option (ProposalDecision Operation Rejection)) := do
  let row ← Program.ask (I := D1Interface) (.selectDecision stream.streamId proposal.operationId)
  Program.lift (decodeDecisionFor stream row proposal)

def assertOccupantIs (existingOperationId : Option String) (proposal : ProposedOperation Intent) :
    Except (D1SyncError ε) Unit :=
  match existingOperationId with
  | none => .ok ()
  | some existingOperationId => do
      let existingOperationId ← readString existingOperationId "decision.operation_id"
      throwIf (existingOperationId ≠ proposal.operationId)
        (.syncEngineError (.clientSequenceConflictError proposal.clientId proposal.clientSequence
          existingOperationId proposal.operationId))

def assertClientPositionAvailable (proposal : ProposedOperation Intent) : D1Program ε Unit := do
  let row ← Program.ask (I := D1Interface)
    (.selectClientPosition stream.streamId proposal.clientId proposal.clientSequence)
  Program.lift (assertOccupantIs row proposal)

def insertRejectedDecision (proposal : ProposedOperation Intent) (reason : Rejection) : D1Write :=
  guardStreamCommitQuery <| .insertDecision {
    streamId := stream.streamId
    operationId := proposal.operationId
    clientId := proposal.clientId
    clientSequence := proposal.clientSequence
    intentHash := proposal.intentHash
    status := "rejected"
    sequence := none
    operationJson := none
    reasonJson := stream.rejectionCodec.serializeJson reason }

def insertAcceptedDecision (proposal : ProposedOperation Intent) (sequence : Int)
    (operation : Operation) : D1Write :=
  guardStreamCommitQuery <| .insertDecision {
    streamId := stream.streamId
    operationId := proposal.operationId
    clientId := proposal.clientId
    clientSequence := proposal.clientSequence
    intentHash := proposal.intentHash
    status := "accepted"
    sequence := sequence
    operationJson := stream.operationCodec.serializeJson operation
    reasonJson := none }

def insertLogEntry (entry : CommittedOperation Operation) : D1Write :=
  guardStreamCommitQuery <| .insertLogEntry {
    streamId := stream.streamId
    sequence := entry.sequence
    operationId := entry.operationId
    clientId := entry.origin.clientId
    clientSequence := entry.origin.clientSequence
    intentHash := entry.origin.intentHash
    operationJson := stream.operationCodec.serializeJson entry.operation }

def updateStreamState (previousHeadSequence headSequence : Int) (stateValue : State) : D1Write :=
  guardStreamCommitQuery <| .updateStreamState headSequence
    (stream.stateCodec.serializeJson stateValue) stream.streamId previousHeadSequence

def stageDraft (staging : D1Staging State Operation Rejection) (proposal : ProposedOperation Intent) :
    Except (D1SyncError ε) (D1Staging State Operation Rejection) := do
  match ← protocol (application (stream.interpreter.decide staging.state proposal)) with
  | .rejected reason =>
      return { staging with
        decisions := staging.decisions ++ [.rejected proposal.operationId reason]
        statements := staging.statements ++ [insertRejectedDecision stream proposal reason] }
  | .accepted operation =>
      let sequence := staging.headSequence + 1
      let state ← protocol (application (stream.interpreter.apply staging.state operation))
      let entry := proposal.committedAt sequence operation
      return {
        headSequence := sequence
        state := state
        decisions := staging.decisions ++ [.accepted proposal.operationId sequence operation]
        statements := staging.statements ++
          [insertAcceptedDecision stream proposal sequence operation, insertLogEntry stream entry] }

def stageProposal (staging : D1Staging State Operation Rejection)
    (proposal : ProposedOperation Intent) : D1Program ε (D1Staging State Operation Rejection) := do
  match ← readStoredDecision stream proposal with
  | some existing => return { staging with decisions := staging.decisions ++ [existing] }
  | none =>
      assertClientPositionAvailable stream proposal
      Program.lift (stageDraft stream staging proposal)

def commitD1Statements (statements : List D1Write) : D1Program ε Unit := do
  let results ← Program.ask (I := D1Interface) (.batch statements)
  Program.lift (match results with
    | .error constraint => .error (storageOrConflictError constraint.message)
    | .ok changes => throwIf (changes.getLast? = some 0) .d1SyncConflictError)

def commitStaging (previousHeadSequence : Int) (staging : D1Staging State Operation Rejection) :
    D1Program ε Unit :=
  if staging.statements.length > 0 then
    commitD1Statements (staging.statements ++
      [updateStreamState stream previousHeadSequence staging.headSequence staging.state])
  else return ()

def readLogPage (baseSequence headSequence maximumEntries : Int) :
    D1Program ε (List (CommittedOperation Operation)) := do
  let rows ← Program.ask (I := D1Interface)
    (.selectLogPage stream.streamId baseSequence headSequence maximumEntries)
  Program.lift (rows.mapM (decodeLogEntry stream.operationCodec))

variable (settings : D1AuthoritySettings State Intent Operation Rejection ε)

def readResponse (request : SyncRequest Intent) (headSequence : Int)
    (decisions : List (ProposalDecision Operation Rejection)) :
    D1Program ε (SyncResponse Operation Rejection) := do
  let maximumEntries := min request.maximumEntries settings.limits.maximumEntriesPerResponse
  let entries ← readLogPage settings.toD1StreamSettings request.baseSequence headSequence maximumEntries
  let response : SyncResponse Operation Rejection := {
    requestedBaseSequence := request.baseSequence
    throughSequence := request.baseSequence + entries.length
    headSequence := headSequence
    entries := entries
    decisions := decisions }
  Program.lift (protocol (assertSyncResponse response (some settings.limits)))
  return response

def synchronizeOnce (request : SyncRequest Intent) :
    D1Program ε (SyncResponse Operation Rejection) := do
  Program.lift (protocol (assertSyncRequest request (some settings.limits)))
  let stream := settings.toD1StreamSettings
  let initialStream ← readOrCreateStream stream
  Program.lift (protocol (throwIf (request.baseSequence > initialStream.headSequence)
    (.unknownBaseSequenceError request.baseSequence initialStream.headSequence)))
  let staging ← request.proposals.foldlM (stageProposal stream) {
    headSequence := initialStream.headSequence
    state := initialStream.state
    decisions := []
    statements := [] }
  commitStaging stream initialStream.headSequence staging
  readResponse settings request staging.headSequence staging.decisions

def synchronizeAttempts (request : SyncRequest Intent) :
    Nat → D1Program ε (SyncResponse Operation Rejection)
  | 0 => .throw .d1SyncConflictError
  | attempts + 1 => (synchronizeOnce settings request).handle fun error =>
      if attempts > 0 ∧ isRetryableD1CommitConflict error = true then
        synchronizeAttempts request attempts
      else .throw error

def D1AuthoritySettings.synchronize (request : SyncRequest Intent) :
    D1Program ε (SyncResponse Operation Rejection) :=
  synchronizeAttempts settings request (settings.maximumCommitRetries + 1).toNat

def D1AuthoritySettings.afterSynchronize (tables : D1Tables) (request : SyncRequest Intent) : D1Tables :=
  ((settings.synchronize request).run D1Tables.answer tables).2

def D1AuthoritySettings.run (tables : D1Tables) (requests : List (SyncRequest Intent)) : D1Tables :=
  requests.foldl settings.afterSynchronize tables

end Authority

/-! ### Authorities on one stream -/

/-- A request to one of the authorities on a stream, which differ in their limits and retries only. -/
structure D1Delivery (Intent : Type) where
  limits : ProtocolLimits
  maximumCommitRetries : Int
  request : SyncRequest Intent

abbrev D1Pool (Intent Operation Rejection ε : Type) :=
  Pool D1Interface D1Tables (D1SyncError ε) (SyncResponse Operation Rejection) (D1Delivery Intent)

namespace D1StreamSettings

variable (stream : D1StreamSettings State Intent Operation Rejection ε)

def authority (delivery : D1Delivery Intent) : D1AuthoritySettings State Intent Operation Rejection ε :=
  { stream with
    limits := delivery.limits
    maximumCommitRetries := delivery.maximumCommitRetries }

def deliver (delivery : D1Delivery Intent) : D1Program ε (SyncResponse Operation Rejection) :=
  (stream.authority delivery).synchronize delivery.request

/-- Tables that hold no row of the stream. -/
structure Unopened (tables : D1Tables) : Prop where
  streams : ∀ row ∈ tables.streams, row.streamId ≠ stream.streamId
  logEntries : ∀ row ∈ tables.logEntries, row.streamId ≠ stream.streamId
  decisions : ∀ row ∈ tables.decisions, row.streamId ≠ stream.streamId

/-- Any number of deliveries that run concurrently over the same tables. -/
def system (admits : D1Tables → D1Delivery Intent → Prop) :
    TransitionSystem (D1Pool Intent Operation Rejection ε) (PoolAction (D1Delivery Intent)) :=
  Pool.system D1Tables.answer stream.deliver stream.Unopened admits

end D1StreamSettings

end SyncEngine
