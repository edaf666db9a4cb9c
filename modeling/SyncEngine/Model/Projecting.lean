import SyncEngine.Model.D1

/-!
# The D1 authority with application tables

`synchronizeOnce` of `next/d1.ts` where `projectAcceptedOperation` is given: what an accepted operation does
to the tables of the application is a part of the batch that commits the decision. The adapter of
`next/d1-correctness.ts` tells the constraints of the application from those of the sync tables. The tables of
the application are a parameter, and so is what the database says of a statement that fails.
-/

namespace SyncEngine

open JavaScript Throwing

variable {State Intent Operation Rejection ε Statement Application : Type}

/-! ### Tables -/

structure D1SyncTableNames where
  streams : String
  logEntries : String
  decisions : String

def d1SyncTableNames (tablePrefix : String) : Except (D1SyncError ε) D1SyncTableNames := do
  let isLetter (char : Char) : Bool := char.isAlpha || char = '_'
  throwIf (¬((tablePrefix.toList.head?.any isLetter) ∧
      tablePrefix.toList.all fun char => isLetter char || char.isDigit))
    (.d1SyncStorageError "D1 sync table prefix must be a valid SQLite identifier prefix")
  return {
    streams := s!"{tablePrefix}_streams"
    logEntries := s!"{tablePrefix}_log_entries"
    decisions := s!"{tablePrefix}_decisions" }

def D1SyncTableNames.values (names : D1SyncTableNames) : List String :=
  [names.streams, names.logEntries, names.decisions]

def D1Write.table (names : D1SyncTableNames) : D1Write → String
  | .insertDecision _ => names.decisions
  | .insertLogEntry _ => names.logEntries
  | .updateStreamState _ _ _ _ | .guardedUpdateStreamState _ _ _ _ => names.streams

/-- The tables of the application. A statement changes some rows, or fails with a message. -/
structure ApplicationDatabase (Statement Application : Type) where
  execute : Application → Statement → Except String (Nat × Application)
  /-- What the database says of a constraint of the sync tables. -/
  constraintMessage : D1Write → SqliteConstraint → String

inductive CommitStatement (Statement : Type) where
  | sync (statement : D1Write)
  | application (statement : Statement)

structure ProjectedTables (Application : Type) where
  sync : D1Tables
  application : Application

namespace ProjectedTables

variable (database : ApplicationDatabase Statement Application) (tables : ProjectedTables Application)

def execute : CommitStatement Statement → Except String (Nat × ProjectedTables Application)
  | .sync statement => do
      let (changes, sync) ← (tables.sync.execute statement).mapError (database.constraintMessage statement)
      return (changes, { tables with sync })
  | .application statement => do
      let (changes, application) ← database.execute tables.application statement
      return (changes, { tables with application })

def executeAll (tables : ProjectedTables Application) :
    List (CommitStatement Statement) → Except String (List Nat × ProjectedTables Application)
  | [] => .ok ([], tables)
  | statement :: statements => do
      let (changes, tables) ← tables.execute database statement
      let (rest, tables) ← tables.executeAll statements
      return (changes :: rest, tables)

/-- A batch is all or nothing, for the tables of both. -/
def batch (statements : List (CommitStatement Statement)) :
    Except String (List Nat) × ProjectedTables Application :=
  match tables.executeAll database statements with
  | .ok (changes, next) => (.ok changes, next)
  | .error message => (.error message, tables)

end ProjectedTables

/-! ### Calls -/

/-- What the authority asks of the database. It commits to the tables of both. -/
inductive ProjectingCall (Statement : Type) where
  | sync (call : D1Call)
  | commit (statements : List (CommitStatement Statement))

def ProjectingInterface (Statement : Type) : Interface where
  Call := ProjectingCall Statement
  Answer
    | .sync call => D1Interface.Answer call
    | .commit _ => Except String (List Nat)

def ProjectedTables.answer (database : ApplicationDatabase Statement Application) :
    Handler (ProjectingInterface Statement) (ProjectedTables Application)
  | .sync call, tables =>
      ((D1Tables.answer call tables.sync).1, { tables with sync := (D1Tables.answer call tables.sync).2 })
  | .commit statements, tables => tables.batch database statements

/-! ### Errors -/

/-- What is thrown inside the authority. A storage error may have a projection error among its causes. -/
structure CausedError (ε : Type) where
  error : D1SyncError ε
  projection : Bool := false

inductive ProjectingError (ε : Type) where
  | d1SyncError (error : D1SyncError ε)
  | d1ApplicationProjectionError
  deriving DecidableEq

def CausedError.expose (caused : CausedError ε) : ProjectingError ε :=
  if caused.projection then .d1ApplicationProjectionError else .d1SyncError caused.error

def isApplicationProjectionConstraint (message : String) (names : D1SyncTableNames) : Bool :=
  testIgnoreCase ["constraint"] message && names.values.all fun tableName => !includes message tableName

abbrev ProjectingProgram (Statement ε α : Type) := Program (ProjectingInterface Statement) (CausedError ε) α

def D1Program.onSyncTables {α : Type} (program : D1Program ε α) : ProjectingProgram Statement ε α :=
  (program.within ProjectingCall.sync fun _ answer => answer).handle fun error => .throw { error }

/-! ### The authority -/

/-- What an accepted operation is to the tables of the application. -/
structure D1Projection (Operation Statement ε : Type) where
  names : D1SyncTableNames
  projectAcceptedOperation : Operation → Except (D1SyncError ε) (List Statement)

structure ProjectingStaging (State Operation Rejection Statement : Type) where
  headSequence : Int
  state : State
  decisions : List (ProposalDecision Operation Rejection)
  statements : List (CommitStatement Statement)

namespace D1Projection

section Authority

variable (projection : D1Projection Operation Statement ε)
  (stream : D1StreamSettings State Intent Operation Rejection ε)

def stageDraft (staging : ProjectingStaging State Operation Rejection Statement)
    (proposal : ProposedOperation Intent) :
    Except (D1SyncError ε) (ProjectingStaging State Operation Rejection Statement) := do
  match ← protocol (application (stream.interpreter.decide staging.state proposal)) with
  | .rejected reason =>
      return { staging with
        decisions := staging.decisions ++ [.rejected proposal.operationId reason]
        statements := staging.statements ++ [.sync (insertRejectedDecision stream proposal reason)] }
  | .accepted operation =>
      let sequence := staging.headSequence + 1
      let state ← protocol (application (stream.interpreter.apply staging.state operation))
      let entry := proposal.committedAt sequence operation
      let projected ← projection.projectAcceptedOperation operation
      return {
        headSequence := sequence
        state := state
        decisions := staging.decisions ++ [.accepted proposal.operationId sequence operation]
        statements := staging.statements ++
          [.sync (insertAcceptedDecision stream proposal sequence operation), .sync (insertLogEntry stream entry)] ++
            projected.map .application }

def stageProposal (staging : ProjectingStaging State Operation Rejection Statement)
    (proposal : ProposedOperation Intent) :
    ProjectingProgram Statement ε (ProjectingStaging State Operation Rejection Statement) := do
  match ← (readStoredDecision stream proposal).onSyncTables with
  | some existing => return { staging with decisions := staging.decisions ++ [existing] }
  | none =>
      (assertClientPositionAvailable stream proposal).onSyncTables
      Program.lift ((projection.stageDraft stream staging proposal).mapError fun error => { error })

def commitError (message : String) : CausedError ε :=
  if isApplicationProjectionConstraint message projection.names then
    { error := storageOrConflictError "D1 application-table projection failed", projection := true }
  else { error := storageOrConflictError message }

def commitD1Statements (statements : List (CommitStatement Statement)) : ProjectingProgram Statement ε Unit := do
  let results ← Program.ask (I := ProjectingInterface Statement) (.commit statements)
  Program.lift (match results with
    | .error message => .error (projection.commitError message)
    | .ok changes => throwIf (changes.getLast? = some 0) { error := .d1SyncConflictError })

def commitStaging (previousHeadSequence : Int) (staging : ProjectingStaging State Operation Rejection Statement) :
    ProjectingProgram Statement ε Unit :=
  if staging.statements.length > 0 then
    projection.commitD1Statements (staging.statements ++
      [.sync (updateStreamState stream previousHeadSequence staging.headSequence staging.state)])
  else return ()

variable (settings : D1AuthoritySettings State Intent Operation Rejection ε)

def synchronizeOnce (request : SyncRequest Intent) :
    ProjectingProgram Statement ε (SyncResponse Operation Rejection) := do
  Program.lift ((protocol (assertSyncRequest request (some settings.limits))).mapError fun error => { error })
  let stream := settings.toD1StreamSettings
  let initialStream ← (readOrCreateStream stream).onSyncTables
  Program.lift ((protocol (throwIf (request.baseSequence > initialStream.headSequence)
    (.unknownBaseSequenceError request.baseSequence initialStream.headSequence))).mapError fun error => { error })
  let staging ← request.proposals.foldlM (projection.stageProposal stream) {
    headSequence := initialStream.headSequence
    state := initialStream.state
    decisions := []
    statements := [] }
  projection.commitStaging stream initialStream.headSequence staging
  (readResponse settings request staging.headSequence staging.decisions).onSyncTables

def synchronizeAttempts (request : SyncRequest Intent) :
    Nat → ProjectingProgram Statement ε (SyncResponse Operation Rejection)
  | 0 => .throw { error := .d1SyncConflictError }
  | attempts + 1 => (projection.synchronizeOnce settings request).handle fun caused =>
      if attempts > 0 ∧ isRetryableD1CommitConflict caused.error = true then
        synchronizeAttempts request attempts
      else .throw caused

/-- `synchronize` of the authority, with its projection errors exposed. -/
def synchronize (request : SyncRequest Intent) :
    Program (ProjectingInterface Statement) (ProjectingError ε) (SyncResponse Operation Rejection) :=
  (projection.synchronizeAttempts settings request (settings.maximumCommitRetries + 1).toNat).handle fun caused =>
    .throw caused.expose

end Authority

/-! ### Authorities on one stream -/

abbrev Deliveries (Intent Operation Rejection ε Statement Application : Type) :=
  Pool (ProjectingInterface Statement) (ProjectedTables Application) (ProjectingError ε)
    (SyncResponse Operation Rejection) (D1Delivery Intent)

variable (projection : D1Projection Operation Statement ε)
  (stream : D1StreamSettings State Intent Operation Rejection ε)

def deliver (delivery : D1Delivery Intent) :
    Program (ProjectingInterface Statement) (ProjectingError ε) (SyncResponse Operation Rejection) :=
  projection.synchronize (stream.authority delivery) delivery.request

/-- Any number of deliveries that run concurrently over the same tables, which nobody else writes. The tables
of the application hold what they held before the first delivery. -/
def system (database : ApplicationDatabase Statement Application) (before : Application)
    (admits : D1Tables → D1Delivery Intent → Prop) :
    TransitionSystem (Deliveries Intent Operation Rejection ε Statement Application)
      (PoolAction (D1Delivery Intent)) :=
  Pool.system (ProjectedTables.answer database) (projection.deliver stream)
    (fun tables => stream.Unopened tables.sync ∧ tables.application = before)
    (fun tables => admits tables.sync)

end D1Projection

end SyncEngine
