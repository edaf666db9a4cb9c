import SyncEngine.Model.RowAuthority

/-!
# Bootstrap

`bootstrapD1RowSyncHistory` of `next/d1-bootstrap.ts`: the rows of existing application tables are read
page by page and submitted to the row authority as operations. The application tables stand beside the
sync tables; a page of a table is a slice of its rows in the order of their primary keys.
-/

namespace SyncEngine

open JavaScript Throwing

variable {ν : Type}

/-! ### The database -/

inductive D1Cell (ν : Type) where
  | null
  | number (value : ν)
  | string (value : Text)
  /-- An `ArrayBuffer` or a view of one, as its bytes. -/
  | binary (bytes : List UInt8)
  /-- An array: the items that are numbers, and `none` for any other. -/
  | array (items : List (Option ν))
  | other (type : String)

abbrev D1Row (ν : Type) := JsRecord (D1Cell ν)

/-- The sync tables, and the rows of every application table in the order of their primary keys. -/
structure BootstrapDatabase (ν : Type) where
  sync : D1Tables
  rows : Text → List (D1Row ν)

structure SyncHistoryRecord where
  headSequence : Int
  logEntryCount : Int
  decisionCount : Int
  deriving DecidableEq

inductive BootstrapCall where
  | sync (call : D1Call)
  /-- The head of a stream, and how many rows of it the other tables have. -/
  | selectHistory (streamId : String)
  /-- `SELECT … FROM … ORDER BY … LIMIT ? OFFSET ?`. -/
  | selectRows (table : Text) (columns orderBy : List Text) (limit offset : Nat)

def BootstrapInterface (ν : Type) : Interface where
  Call := BootstrapCall
  Answer
    | .sync call => D1Interface.Answer call
    | .selectHistory _ => Option SyncHistoryRecord
    | .selectRows _ _ _ _ _ => List (D1Row ν)

def D1Tables.selectHistory (tables : D1Tables) (streamId : String) : Option SyncHistoryRecord :=
  (tables.streams.find? fun row => row.streamId = streamId).map fun row => {
    headSequence := row.headSequence
    logEntryCount := tables.logEntries.countP fun row => row.streamId = streamId
    decisionCount := tables.decisions.countP fun row => row.streamId = streamId }

def BootstrapDatabase.answer : Handler (BootstrapInterface ν) (BootstrapDatabase ν)
  | .sync call, database =>
      ((D1Tables.answer call database.sync).1, { database with sync := (D1Tables.answer call database.sync).2 })
  | .selectHistory streamId, database => (database.sync.selectHistory streamId, database)
  | .selectRows table _ _ limit offset, database => (((database.rows table).drop offset).take limit, database)

abbrev BootstrapProgram (ν α : Type) := Program (BootstrapInterface ν) (RowSyncError ν) α

def D1Program.ofSync {α : Type} (program : D1Program (WireException ν RowError) α) : BootstrapProgram ν α :=
  program.within (J := BootstrapInterface ν) .sync fun _ answer => answer

/-! ### Errors and checks -/

def storageError (message : Text) : RowSyncError ν := .d1SyncStorageError (ofUtf16Units message)

def readNonBlankString (value label : String) : Except (RowSyncError ν) String := do
  let trimmed := ofUtf16Units (trim (utf16Units value))
  throwIf (trimmed.length = 0) (.d1SyncStorageError s!"{label} must be a non-empty string")
  return trimmed

def resolveBatchSize (value : Option Int) : Except (RowSyncError ν) Int := do
  let batchSize := value.getD defaultProtocolLimits.maximumProposalsPerRequest
  throwIf (¬IsSafeInteger batchSize ∨ batchSize < 1)
    (.d1SyncStorageError "bootstrap batchSize must be a positive safe integer")
  return batchSize

def readNonNegativeInteger (value : Int) (label : String) : Except (RowSyncError ν) Int := do
  throwIf (¬(IsSafeInteger value ∧ value ≥ 0)) (.d1SyncStorageError s!"{label} must be a non-negative safe integer")
  return value

def selectTable (schema : ReplicaSchemaContract) (tableNames : List Text) (rawName : Text) :
    Except (RowSyncError ν) (List Text) := do
  let tableName := trim rawName
  throwIf (tableName = []) (.d1SyncStorageError "bootstrap table names must not be empty")
  throwIf ((schema.tables.get? tableName).isNone ∧ tableName ∉ objectPrototypeMembers)
    (storageError (ascii "cannot bootstrap table " ++ quote tableName ++
      ascii " because it is not in the replica schema"))
  return if tableName ∈ tableNames then tableNames else tableNames ++ [tableName]

def resolveBootstrapTables (schema : ReplicaSchemaContract) (selectedTables : Option (List Text)) :
    Except (RowSyncError ν) (List Text) :=
  match selectedTables with
  | none => .ok ((schema.tables.entries.map Prod.fst).insertionSort (· ≤ ·))
  | some selectedTables => do
      let tableNames ← selectedTables.foldlM (selectTable schema) []
      throwIf (tableNames.length = 0) (.d1SyncStorageError "bootstrap requires at least one table")
      return tableNames.insertionSort (· ≤ ·)

def bootstrapTable (schema : ReplicaSchemaContract) (tableName : Text) (use : UndefinedUse) :
    Except (RowSyncError ν) ReplicaTableContract :=
  match schema.tables.get? tableName with
  | some table => .ok table
  | none =>
      if tableName ∈ objectPrototypeMembers then .error (rowSyncError (.typeError use))
      else .error (storageError (ascii "cannot bootstrap unknown table " ++ quote tableName))

/-! ### Reading rows -/

/-- The runtime of a bootstrap: bytes as numbers, and SHA-256 of the UTF-8 bytes of a text. -/
structure BootstrapRuntime (ν : Type) extends RowRuntime ν where
  ofByte : UInt8 → ν
  sha256 : Text → Vector UInt8 32

def D1Cell.describe : D1Cell ν → String
  | .null => "null"
  | .number _ => "number"
  | .string _ => "string"
  | .binary _ => "object"
  | .array _ => "array"
  | .other type => type

section Rows

variable (runtime : BootstrapRuntime ν) (schema : ReplicaSchemaContract)

def toJsonBlob (value : D1Cell ν) (label : Text) : Except (RowSyncError ν) (JsonValue ν) :=
  let unreadable : RowSyncError ν := storageError (ascii "cannot bootstrap " ++ label ++
    ascii s!"; D1 returned {value.describe} for blob column")
  match value with
  | .binary bytes => .ok (.array (bytes.map fun byte => .number (runtime.ofByte byte)))
  | .array items => do
      throwIf (¬items.all fun item => item.any runtime.isByte) unreadable
      return .array (items.filterMap fun item => item.map .number)
  | _ => .error unreadable

def toJsonColumnValue (column : ReplicaColumnContract) (value : D1Cell ν) (label : Text) :
    Except (RowSyncError ν) (JsonValue ν) :=
  let unreadable : RowSyncError ν := storageError (ascii "cannot bootstrap " ++ label ++
    ascii s!"; D1 returned {value.describe} for {column.affinity.name} column")
  match column.affinity, value with
  | _, .null => .ok .null
  | .integer, .number value
  | .real, .number value
  | .numeric, .number value => do
      throwIf (¬runtime.isFinite value) unreadable
      return .number value
  | .numeric, .string value
  | .text, .string value => .ok (.string value)
  | .blob, value => toJsonBlob runtime value label
  | _, _ => .error unreadable

def bootstrapOperation (tableName : Text) (table : ReplicaTableContract) (row : D1Row ν) :
    Except (RowSyncError ν) (RowOperation ν) := do
  let normalizedRow ← buildRecord table.columns.entries Prod.fst fun (columnName, column) =>
    match row.get? columnName with
    | none => .error (storageError (ascii "D1 row for table " ++ quote tableName ++ ascii " omitted column " ++
        quote columnName))
    | some value => toJsonColumnValue runtime column value (tableName ++ ascii "." ++ columnName)
  (normalizeRowOperation runtime.toRowRuntime schema (RowOperation.putRow tableName normalizedRow).toJson).mapError
    rowSyncError

def readBootstrapOperations (tableName : Text) (limit offset : Nat) : BootstrapProgram ν (List (RowOperation ν)) := do
  let table ← Program.lift (bootstrapTable schema tableName .entries)
  let rows ← Program.ask (I := BootstrapInterface ν)
    (.selectRows tableName (table.columns.entries.map Prod.fst) table.primaryKey limit offset)
  Program.lift (rows.mapM (bootstrapOperation runtime schema tableName table))

/-! ### Proposals -/

def createIntentHash (value : JsonValue ν) : Except InvalidJsonValueError String := do
  let canonical ← canonicalizeJsonTree runtime.toNumberFormat value
  return "sha256:" ++ String.ofList ((runtime.sha256 canonical).toList.flatMap hexByte)

def invalidJson {α : Type} (result : Except InvalidJsonValueError α) : Except (RowSyncError ν) α :=
  result.mapError fun error => .syncEngineError (.applicationError (.invalidJsonValueError error))

def bootstrapOperationId (operation : RowOperation ν) : Except (RowSyncError ν) String :=
  match operation with
  | .deleteRow _ _ => .error (.d1SyncStorageError "bootstrap only creates putRow operations")
  | .putRow tableName row => do
      let table ← bootstrapTable schema tableName (.property (ascii "map"))
      let digest ← invalidJson do
        let key ← table.primaryKey.zipIdx.mapM fun (columnName, index) =>
          keyItem row (fieldPath (ascii "$") (ascii "key")) ((inheritedType columnName).getD "undefined") columnName
            index
        createIntentHash runtime (.object [(ascii "table", .string tableName), (ascii "key", .array key)])
      return "sync-engine-bootstrap:" ++ ofUtf16Units tableName ++ ":" ++
        String.ofList (sliceFrom digest.toList "sha256:".length)

def bootstrapProposals (clientId : String) (clientSequence : Int) :
    List (RowOperation ν) → Except (RowSyncError ν) (List (ProposedOperation (RowOperation ν)))
  | [] => .ok []
  | operation :: operations => do
      let operationId ← bootstrapOperationId runtime schema operation
      let intentHash ← invalidJson (createIntentHash runtime operation.toJson)
      let proposals ← bootstrapProposals clientId (clientSequence + 1) operations
      return { operationId, clientId, clientSequence, intentHash, intent := operation } :: proposals

def ProposalDecision.isRejected {Operation Rejection : Type} : ProposalDecision Operation Rejection → Bool
  | .accepted _ _ _ => false
  | .rejected _ _ => true

def assertBootstrapAccepted (decisions : List (ProposalDecision (RowOperation ν) (JsonValue ν)))
    (expectedCount : Nat) : Except (RowSyncError ν) Unit := do
  throwIf (decisions.length ≠ expectedCount)
    (.d1SyncStorageError s!"bootstrap expected {expectedCount} decision(s), received {decisions.length}")
  match decisions.find? ProposalDecision.isRejected with
  | some (.rejected _ reason) => .error (storageError (ascii "bootstrap row operation was rejected: " ++
      reason.stringify runtime.toNumberFormat))
  | _ => .ok ()

end Rows

/-! ### The bootstrap -/

structure BootstrapD1RowSyncHistoryOptions where
  streamId : String
  tables : Option (List Text) := none
  clientId : Option String := none
  batchSize : Option Int := none
  maximumCommitRetries : Option Int := none

structure BootstrapD1RowSyncHistoryResult where
  streamId : String
  tableCount : Int
  operationCount : Int
  headSequence : Int
  deriving DecidableEq

/-- The options, resolved, and the authority made of them. -/
structure BootstrapSettings (ν : Type) where
  streamId : String
  clientId : String
  batchSize : Int
  maximumEntries : Int
  authority : D1RowSettings ν

structure BootstrapProgress where
  baseSequence : Int
  clientSequence : Int
  operationCount : Int

section Bootstrap

variable (runtime : BootstrapRuntime ν) (schema : ReplicaSchemaContract)

def resolveBootstrapOptions (options : BootstrapD1RowSyncHistoryOptions) :
    Except (RowSyncError ν) (BootstrapSettings ν) := do
  let streamId ← readNonBlankString options.streamId "streamId"
  let clientId ← readNonBlankString (options.clientId.getD "sync-engine-bootstrap") "clientId"
  let batchSize ← resolveBatchSize options.batchSize
  let maximumEntries := max batchSize defaultProtocolLimits.maximumEntriesPerResponse
  let authority ← createD1RowSyncAuthority runtime.toRowRuntime {
    streamId := streamId
    schema := schema
    limits := { maximumProposalsPerRequest := batchSize, maximumEntriesPerResponse := maximumEntries }
    maximumCommitRetries := options.maximumCommitRetries }
  return { streamId, clientId, batchSize, maximumEntries, authority }

/-- The checks of `readSyncHistory` on the row it has selected. -/
def readHistoryRow (streamId : String) (row : Option SyncHistoryRecord) :
    Except (RowSyncError ν) SyncHistoryRecord :=
  match row with
  | none => .error (.d1SyncStorageError s!"D1 sync stream {stringify streamId} was not initialized")
  | some row => do
      let headSequence ← readNonNegativeInteger row.headSequence "head_sequence"
      let logEntryCount ← readNonNegativeInteger row.logEntryCount "log_entry_count"
      let decisionCount ← readNonNegativeInteger row.decisionCount "decision_count"
      return { headSequence, logEntryCount, decisionCount }

def readSyncHistory (streamId : String) : BootstrapProgram ν SyncHistoryRecord := do
  let row ← Program.ask (I := BootstrapInterface ν) (.selectHistory streamId)
  Program.lift (readHistoryRow streamId row)

def assertEmptyHistory (streamId : String) (initialHead : Int) (history : SyncHistoryRecord) :
    Except (RowSyncError ν) Unit :=
  throwIf (initialHead ≠ 0 ∨ history.headSequence ≠ 0 ∨ history.logEntryCount ≠ 0 ∨ history.decisionCount ≠ 0)
    (.d1SyncStorageError (s!"D1 bootstrap requires an empty sync history for stream {stringify streamId}; " ++
      s!"current head={history.headSequence}, log entries={history.logEntryCount}, " ++
      s!"decisions={history.decisionCount}."))

variable (settings : BootstrapSettings ν)

def BootstrapSettings.request (baseSequence : Int) (proposals : List (ProposedOperation (RowOperation ν))) :
    SyncRequest (RowOperation ν) where
  baseSequence := baseSequence
  maximumEntries := settings.maximumEntries
  proposals := proposals

/-- The body of the inner loop, on a page that is not empty. -/
def importPage (progress : BootstrapProgress) (operations : List (RowOperation ν)) :
    BootstrapProgram ν BootstrapProgress := do
  let proposals ← Program.lift
    (bootstrapProposals runtime schema settings.clientId progress.clientSequence operations)
  let response ← D1Program.ofSync
    (settings.authority.synchronize (settings.request progress.baseSequence proposals))
  Program.lift (assertBootstrapAccepted runtime response.decisions proposals.length)
  return {
    baseSequence := response.headSequence
    clientSequence := progress.clientSequence + operations.length
    operationCount := progress.operationCount + proposals.length }

/-- The inner loop, for as many pages as there is fuel. Without any left there is no result. -/
def importTable (tableName : Text) : Nat → Nat → BootstrapProgress → BootstrapProgram ν (Option BootstrapProgress)
  | 0, _, _ => return none
  | fuel + 1, offset, progress => do
      let operations ← readBootstrapOperations runtime schema tableName settings.batchSize.toNat offset
      if operations.length = 0 then return some progress
      else
        let progress ← importPage runtime schema settings progress operations
        importTable tableName fuel (offset + operations.length) progress

def importTables (fuel : Nat) : List Text → BootstrapProgress → BootstrapProgram ν (Option BootstrapProgress)
  | [], progress => return some progress
  | tableName :: tableNames, progress => do
      match ← importTable runtime schema settings tableName fuel 0 progress with
      | none => return none
      | some progress => importTables fuel tableNames progress

def bootstrapD1RowSyncHistory (fuel : Nat) (options : BootstrapD1RowSyncHistoryOptions) :
    BootstrapProgram ν (Option BootstrapD1RowSyncHistoryResult) := do
  let settings ← Program.lift (resolveBootstrapOptions runtime schema options)
  let initial ← D1Program.ofSync (settings.authority.synchronize (settings.request 0 []))
  let history ← readSyncHistory settings.streamId
  Program.lift (assertEmptyHistory settings.streamId initial.headSequence history)
  let tableNames ← Program.lift (resolveBootstrapTables schema options.tables)
  match ← importTables runtime schema settings fuel tableNames ⟨0, 1, 0⟩ with
  | none => return none
  | some progress => return some {
      streamId := settings.streamId
      tableCount := tableNames.length
      operationCount := progress.operationCount
      headSequence := progress.baseSequence }

end Bootstrap

end SyncEngine
