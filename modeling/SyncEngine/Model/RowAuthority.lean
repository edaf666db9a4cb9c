import SyncEngine.Lib.Utf16
import SyncEngine.Model.D1
import SyncEngine.Model.Route

/-!
# The D1 row authority

`createD1RowSyncAuthority` of `next/d1.ts`, without a projection to application tables: the D1 authority
of a row database, whose cells are canonical JSON texts of row states, row operations and rejections.
-/

namespace SyncEngine

open JavaScript Throwing

variable {ν ε State Intent Operation Rejection Value : Type}

/-! ### Stored values -/

/-- `serializeJson` and `deserializeJson` for a codec. The authority serializes only what its codecs can
encode; where they cannot, no text stands here for the exception. -/
def Wire.JsonCodec.stored (numbers : NumberFormat ν) (codec : Wire.JsonCodec ν ε Value) :
    SyncEngine.JsonCodec Value (WireException ν ε) where
  serializeJson value :=
    ofUtf16Units ((codec.encode value >>= canonicalizeUnknown numbers).toOption.getD [])
  deserializeJson text :=
    match parse numbers (utf16Units text) with
    | some value => codec.decode (some value)
    | none => .error .syntaxError

def ReplicaDatabaseState.toJson (state : ReplicaDatabaseState (RowRecord ν)) : JsonValue ν :=
  .object [
    (ascii "schemaHash", .string state.schemaHash),
    (ascii "tables", .object (state.tables.entries.map fun table =>
      (table.1, .object (table.2.entries.map fun row => (row.1, .object row.2.entries)))))]

def objectFields : JsonValue ν → Option (List (Text × JsonValue ν))
  | .object fields => some fields
  | _ => none

def recordOfJson {α : Type} (read : JsonValue ν → Option α) (value : JsonValue ν) : Option (JsRecord α) := do
  let fields ← objectFields value
  let entries ← fields.mapM fun field => do return (field.1, ← read field.2)
  return InsertionMap.empty.setAll entries

def ReplicaDatabaseState.ofJson (value : JsonValue ν) : Option (ReplicaDatabaseState (RowRecord ν)) := do
  let fields ← objectFields value
  match ownField fields (ascii "schemaHash"), ownField fields (ascii "tables") with
  | some (.string schemaHash), some tables =>
      return { schemaHash, tables := ← recordOfJson (recordOfJson (recordOfJson some)) tables }
  | _, _ => none

/-- The codec of the state column. An object of another shape, which is only cast in the source, is no
state here. -/
def createReplicaDatabaseStateCodec (numbers : NumberFormat ν) (schema : ReplicaSchemaContract) :
    Wire.JsonCodec ν RowError (ReplicaDatabaseState (RowRecord ν)) where
  encode value := do
    (assertDatabaseStateSchema schema value).mapError (.applicationError ∘ .schemaMismatchError)
    return some value.toJson
  decode value := do
    match ReplicaDatabaseState.ofJson (← toJsonValue numbers value) with
    | none => throw (.applicationError (.typeError (.property (ascii "schemaHash"))))
    | some state =>
        (assertDatabaseStateSchema schema state).mapError (.applicationError ∘ .schemaMismatchError)
        return state

/-! ### The authority -/

def LogInterpreter.mapError {ε' : Type} (f : ε → ε')
    (interpreter : LogInterpreter State Intent Operation Rejection ε) :
    LogInterpreter State Intent Operation Rejection ε' where
  decide state proposal := (interpreter.decide state proposal).mapError f
  apply state operation := (interpreter.apply state operation).mapError f

abbrev RowSyncError (ν : Type) := D1SyncError (WireException ν RowError)

def rowSyncError (error : RowError) : RowSyncError ν := .syncEngineError (.applicationError (.applicationError error))

abbrev D1RowSettings (ν : Type) :=
  D1AuthoritySettings (ReplicaDatabaseState (RowRecord ν)) (RowOperation ν) (RowOperation ν) (JsonValue ν)
    (WireException ν RowError)

structure CreateD1RowSyncAuthorityOptions where
  streamId : String
  schema : ReplicaSchemaContract
  limits : ProtocolLimitOverrides := {}
  maximumCommitRetries : Option Int := none

/-- Rejections are the default ones, as JSON values. -/
def createD1RowSyncAuthority (rows : RowRuntime ν) (options : CreateD1RowSyncAuthorityOptions) :
    Except (RowSyncError ν) (D1RowSettings ν) := do
  let initialState ← (createInitialDatabaseState options.schema).mapError rowSyncError
  let interpreter ← (createRowLogInterpreter rows options.schema {
    rejectInvalidOperation := none
    ofRowRejection := RowRejection.toJson }).mapError rowSyncError
  protocol (createD1LogSyncAuthority {
    streamId := options.streamId
    initialState := initialState
    interpreter := interpreter.mapError .applicationError
    stateCodec := (createReplicaDatabaseStateCodec rows.toNumberFormat options.schema).stored rows.toNumberFormat
    operationCodec := (createRowOperationCodec rows options.schema).stored rows.toNumberFormat
    rejectionCodec := (jsonValueCodec rows.toNumberFormat).stored rows.toNumberFormat
    schemaHash := some (ofUtf16Units options.schema.schemaHash)
    limits := options.limits
    maximumCommitRetries := options.maximumCommitRetries })

end SyncEngine
