import SyncEngine.Model.Fingerprint
import SyncEngine.Model.Network
import SyncEngine.Model.Rows
import SyncEngine.Model.Wire

/-!
# Row operations

The operations of `client/row`, their normalization, and the interpreters that run them on a row
database. Operations come in as JSON trees. A name that is no own key of a record is looked up among the
members that every object inherits: a contract, a column or a value of a row may be found there.
-/

namespace SyncEngine

open JavaScript Throwing

variable {ν Rejection : Type}

abbrev RowRecord (ν : Type) := JsRecord (JsonValue ν)

abbrev PrimaryKeyRecord (ν : Type) := JsRecord (JsonValue ν)

inductive RowOperation (ν : Type) where
  | putRow (table : Text) (row : RowRecord ν)
  | deleteRow (table : Text) (key : PrimaryKeyRecord ν)

def RowOperation.toJson : RowOperation ν → JsonValue ν
  | .putRow table row => .object [
      (ascii "type", .string (ascii "putRow")),
      (ascii "table", .string table),
      (ascii "row", .object row.entries)]
  | .deleteRow table key => .object [
      (ascii "type", .string (ascii "deleteRow")),
      (ascii "table", .string table),
      (ascii "key", .object key.entries)]

/-- What is done to `undefined` where an inherited member is taken for a contract, which has neither columns
nor a primary key: a property of it is read, it is converted to an object, spread in an array, or iterated. -/
inductive UndefinedUse where
  | property (name : Text)
  | entries
  | spread
  | iteration

structure RowRuntime (ν : Type) extends NumberFormat ν where
  isByte : ν → Bool
  isFinite_of_isByte : ∀ number, isByte number → isFinite number
  typeErrorMessage : UndefinedUse → Text

inductive RowError where
  | rowOperationError (message : Text)
  | schemaMismatchError (error : SyncClientSchemaMismatchError)
  | invalidJsonValueError (error : InvalidJsonValueError)
  | typeError (use : UndefinedUse)

def RowError.message (runtime : RowRuntime ν) : RowError → Text
  | .rowOperationError message => message
  | .schemaMismatchError error => error.message
  | .invalidJsonValueError error => error.message
  | .typeError use => runtime.typeErrorMessage use

/-! ### Records and texts -/

def objectPrototypeMembers : List Text :=
  ["constructor", "hasOwnProperty", "isPrototypeOf", "propertyIsEnumerable", "toLocaleString", "toString",
    "valueOf", "__defineGetter__", "__defineSetter__", "__lookupGetter__", "__lookupSetter__",
    "__proto__"].map ascii

/-- The `typeof` of what an object inherits under a name. -/
def inheritedType (name : Text) : Option String :=
  if name = prototypeKey then some "object"
  else if name ∈ objectPrototypeMembers then some "function" else none

/-- A loop that sets one key of a new record for each item. -/
def buildRecord {α β ε : Type} (items : List α) (name : α → Text) (value : α → Except ε β) :
    Except ε (JsRecord β) :=
  items.foldlM (fun record item => do return record.set (name item) (← value item)) InsertionMap.empty

/-- Set a name of a key. A value that is no JSON value is left out. -/
def setKey {β ε : Type} (value : Text → Except ε (Option β)) (record : JsRecord β) (name : Text) :
    Except ε (JsRecord β) := do
  match ← value name with
  | some value => return record.set name value
  | none => return record

def buildKey {β ε : Type} (names : List Text) (value : Text → Except ε (Option β)) : Except ε (JsRecord β) :=
  names.foldlM (setKey value) InsertionMap.empty

def listNames (names : List Text) : Text := (ascii ", ").intercalate (names.map quote)

/-- White space and line terminators, which `trim` removes. -/
def isTrimmed (unit : CodeUnit) : Bool :=
  (9 ≤ unit.val && unit.val ≤ 13) || (0x2000 ≤ unit.val && unit.val ≤ 0x200A) ||
    [0x20, 0xA0, 0x1680, 0x2028, 0x2029, 0x202F, 0x205F, 0x3000, 0xFEFF].contains unit.val

def trim (text : Text) : Text := ((text.dropWhile isTrimmed).reverse.dropWhile isTrimmed).reverse

/-! ### Normalization -/

def SqliteAffinity.name : SqliteAffinity → String
  | .integer => "integer"
  | .real => "real"
  | .text => "text"
  | .blob => "blob"
  | .numeric => "numeric"

def describeValue : JsonValue ν → String
  | .null => "null"
  | .boolean _ => "boolean"
  | .number _ => "number"
  | .string _ => "string"
  | .array _ => "array"
  | .object _ => "object"

def columnTypeError (tableName columnName : Text) (affinity : SqliteAffinity) (received : String) : RowError :=
  .rowOperationError (ascii "column " ++ quote columnName ++ ascii " in table " ++ quote tableName ++
    ascii s!" expects SQLite {affinity.name} representation; received {received}")

def RowOperation.readNonEmptyString (value : Option (JsonValue ν)) (label : String) : Except RowError Text :=
  match value with
  | some (.string value) => do
      throwIf (value.all isTrimmed) (.rowOperationError (ascii s!"{label} must be a non-empty string"))
      return value
  | _ => .error (.rowOperationError (ascii s!"{label} must be a non-empty string"))

def plainRecord (value : Option (JsonValue ν)) (error : RowError) : Except RowError (List (Text × JsonValue ν)) :=
  match value with
  | some (.object fields) => .ok fields
  | _ => .error error

/-- `schema.tables[tableName]`, where an inherited member is found but is no contract. -/
def requireTable (schema : ReplicaSchemaContract) (tableName : Text) :
    Except RowError (Option ReplicaTableContract) :=
  match schema.tables.get? tableName with
  | some table => .ok (some table)
  | none =>
      if tableName ∈ objectPrototypeMembers then .ok none
      else .error (.rowOperationError (ascii "unknown replicated table " ++ quote tableName))

def readContract (table : Option ReplicaTableContract) (use : UndefinedUse) : Except RowError ReplicaTableContract :=
  match table with
  | some table => .ok table
  | none => .error (.typeError use)

/-- The first use of the columns of a table for a row: `table.columns[columnName]` for its first column, or
`Object.entries(table.columns)`. -/
def columnsUse (row : List (Text × JsonValue ν)) : UndefinedUse :=
  match row with
  | [] => .entries
  | column :: _ => .property column.1

def assertNoUnknownColumns (tableName : Text) (table : ReplicaTableContract)
    (row : List (Text × JsonValue ν)) : Except RowError Unit :=
  let unknown := (row.map Prod.fst).filter fun columnName =>
    (table.columns.get? columnName).isNone && !objectPrototypeMembers.contains columnName
  throwIf (0 < unknown.length)
    (.rowOperationError (ascii "row for table " ++ quote tableName ++ ascii " contains unknown columns " ++
      listNames unknown))

section Normalize

variable (runtime : RowRuntime ν)

def isByteValue : JsonValue ν → Bool
  | .number byte => runtime.isByte byte
  | _ => false

def normalizeColumnValue (tableName columnName : Text) (column : ReplicaColumnContract)
    (value : JsonValue ν) : Except RowError (JsonValue ν) :=
  match value with
  | .null => do
      throwIf (¬column.nullable)
        (.rowOperationError (ascii "column " ++ quote columnName ++ ascii " in table " ++ quote tableName ++
          ascii " is not nullable"))
      return .null
  | value =>
      match column.affinity, value with
      | .integer, .number number
      | .real, .number number
      | .numeric, .number number => do
          throwIf (¬runtime.isFinite number) (columnTypeError tableName columnName column.affinity
            (describeValue value))
          return value
      | .text, .string _
      | .numeric, .string _ => .ok value
      | .blob, .array items => do
          throwIf (¬items.all (isByteValue runtime)) (columnTypeError tableName columnName column.affinity
            (describeValue value))
          return .array items
      | _, _ => .error (columnTypeError tableName columnName column.affinity (describeValue value))

/-- The value of a column of a row. What the row inherits under the name is a function or an object. -/
def normalizeRowColumn (tableName : Text) (value : List (Text × JsonValue ν)) (columnName : Text)
    (column : ReplicaColumnContract) : Except RowError (JsonValue ν) :=
  match ownField value columnName, inheritedType columnName with
  | some candidate, _ => normalizeColumnValue runtime tableName columnName column candidate
  | none, some type => .error (columnTypeError tableName columnName column.affinity type)
  | none, none =>
      if column.nullable then .ok .null
      else .error (.rowOperationError (ascii "row for table " ++ quote tableName ++
        ascii " is missing non-null column " ++ quote columnName))

def normalizeFullRow (tableName : Text) (table : Option ReplicaTableContract)
    (value : Option (JsonValue ν)) : Except RowError (RowRecord ν) := do
  let value ← plainRecord value
    (.rowOperationError (ascii "putRow for table " ++ quote tableName ++ ascii " requires a plain row object"))
  let table ← readContract table (columnsUse value)
  assertNoUnknownColumns tableName table value
  buildRecord table.columns.entries Prod.fst fun column =>
    normalizeRowColumn runtime tableName value column.1 column.2

/-- What an object has under a name of a primary key: a value, or a function, which only a key that is read
from a row has. -/
abbrev KeyEntry (ν : Type) := Option (JsonValue ν)

/-- The entry of a primary key for a column. An inherited member is found as the column, but has no affinity:
the entry becomes `undefined`. -/
def normalizeKeyColumn (tableName : Text) (table : ReplicaTableContract) (candidate : Option (KeyEntry ν))
    (columnName : Text) : Except RowError (Option (JsonValue ν)) := do
  throwIf ((table.columns.get? columnName).isNone ∧ columnName ∉ objectPrototypeMembers)
    (.rowOperationError (ascii "table " ++ quote tableName ++ ascii " primary-key column " ++ quote columnName ++
      ascii " is missing from its schema"))
  match candidate, table.columns.get? columnName with
  | none, _
  | some (some .null), _ => .error (.rowOperationError (ascii "primary-key column " ++ quote columnName ++
      ascii " for table " ++ quote tableName ++ ascii " cannot be null or missing"))
  | some _, none => return none
  | some none, some column => .error (columnTypeError tableName columnName column.affinity "function")
  | some (some candidate), some column =>
      return some (← normalizeColumnValue runtime tableName columnName { column with nullable := false } candidate)

/-- `normalizePrimaryKey` of an object, given as its own names and what it has under them. -/
def normalizeKey (tableName : Text) (table : Option ReplicaTableContract) (received : List Text)
    (entry : Text → Option (KeyEntry ν)) : Except RowError (PrimaryKeyRecord ν) := do
  let table ← readContract table .spread
  throwIf (received.insertionSort (· ≤ ·) ≠ table.primaryKey.insertionSort (· ≤ ·))
    (.rowOperationError (ascii "primary key for table " ++ quote tableName ++ ascii " must contain exactly " ++
      listNames table.primaryKey))
  buildKey table.primaryKey fun columnName =>
    normalizeKeyColumn runtime tableName table (entry columnName) columnName

def normalizePrimaryKey (tableName : Text) (table : Option ReplicaTableContract)
    (value : Option (JsonValue ν)) : Except RowError (PrimaryKeyRecord ν) := do
  let value ← plainRecord value
    (.rowOperationError (ascii "primary key for table " ++ quote tableName ++ ascii " must be a plain object"))
  normalizeKey runtime tableName table (value.map Prod.fst) fun columnName => (ownField value columnName).map some

def normalizeRowOperation (schema : ReplicaSchemaContract) (operation : JsonValue ν) :
    Except RowError (RowOperation ν) := do
  let operation ← plainRecord (some operation)
    (.rowOperationError (ascii "row operation must be a plain object"))
  let tableName ← RowOperation.readNonEmptyString (ownField operation (ascii "table")) "operation.table"
  let table ← requireTable schema tableName
  let unknownType := fun (type : Text) => RowError.rowOperationError
    (ascii "operation.type must be \"putRow\" or \"deleteRow\"; received " ++ type)
  match ownField operation (ascii "type") with
  | some (.string type) =>
      if type = ascii "putRow" then
        return .putRow tableName (← normalizeFullRow runtime tableName table (ownField operation (ascii "row")))
      else if type = ascii "deleteRow" then
        return .deleteRow tableName (← normalizePrimaryKey runtime tableName table (ownField operation (ascii "key")))
      else .error (unknownType (quote type))
  | some type => .error (unknownType (type.stringify runtime.toNumberFormat))
  | none => .error (unknownType (ascii "undefined"))

end Normalize

/-! ### Keys -/

/-- The key of a row. Under a name that the row inherits, it has the function that it finds there; setting
`__proto__` gives it no own key. -/
def keyFromRow (schema : ReplicaSchemaContract) (tableName : Text) (row : RowRecord ν) :
    Except RowError (JsRecord (KeyEntry ν)) := do
  let table ← readContract (← requireTable schema tableName) .iteration
  buildKey table.primaryKey fun column =>
    if column = prototypeKey then .ok none
    else match row.get? column with
      | some value => .ok (some (some value))
      | none =>
          if column ∈ objectPrototypeMembers then .ok (some none)
          else .error (.rowOperationError (ascii "row for table " ++ quote tableName ++
            ascii " is missing primary-key column " ++ quote column))

/-- An item of a key that is canonicalized. `Object.prototype`, which is read under its own name, has no
enumerable keys. -/
def keyItem (record : JsRecord (JsonValue ν)) (path : Text) (type : String) (columnName : Text) (index : Nat) :
    Except InvalidJsonValueError (JsonValue ν) :=
  match record.get? columnName with
  | some value => .ok value
  | none =>
      if columnName = prototypeKey then .ok (.object [])
      else .error ⟨itemPath path index, type ++ " is not a JSON value"⟩

/-- `encodePrimaryKey` of an object, given as its own names and what it has under them. -/
def encodeKey (runtime : RowRuntime ν) (schema : ReplicaSchemaContract) (tableName : Text) (received : List Text)
    (entry : Text → Option (KeyEntry ν)) : Except RowError Text := do
  let table ← requireTable schema tableName
  let normalized ← normalizeKey runtime tableName table received entry
  let table ← readContract table (.property (ascii "map"))
  Except.mapError .invalidJsonValueError do
    let items ← table.primaryKey.zipIdx.mapM fun (column, index) =>
      keyItem normalized (ascii "$") "undefined" column index
    canonicalizeJsonTree runtime.toNumberFormat (.array items)

def encodePrimaryKey (runtime : RowRuntime ν) (schema : ReplicaSchemaContract) (tableName : Text)
    (key : PrimaryKeyRecord ν) : Except RowError Text :=
  encodeKey runtime schema tableName (key.entries.map Prod.fst) fun column => (key.get? column).map some

def encodeRowPrimaryKey (runtime : RowRuntime ν) (schema : ReplicaSchemaContract) (tableName : Text)
    (row : RowRecord ν) : Except RowError Text := do
  let key ← keyFromRow schema tableName row
  encodeKey runtime schema tableName (key.entries.map Prod.fst) key.get?

/-! ### State -/

def assertRowReplicationSchema (schema : ReplicaSchemaContract) : Except RowError Unit :=
  schema.tables.entries.forM fun (tableName, table) => do
    throwIf (table.primaryKey.length = 0)
      (.rowOperationError (ascii "table " ++ quote tableName ++ ascii " has no primary key"))
    table.primaryKey.forM fun primaryKey =>
      throwIf ((table.columns.get? primaryKey).isNone ∧ primaryKey ∉ objectPrototypeMembers)
        (.rowOperationError (ascii "table " ++ quote tableName ++ ascii " primary key " ++ quote primaryKey ++
          ascii " is not a column"))
    let generatedColumns := (table.columns.entries.filter fun column => column.2.generated).map Prod.fst
    throwIf (0 < generatedColumns.length)
      (.rowOperationError (ascii "the default row-replication runtime does not support generated columns; table " ++
        quote tableName ++ ascii " contains " ++ listNames generatedColumns))

def createInitialDatabaseState (schema : ReplicaSchemaContract) :
    Except RowError (ReplicaDatabaseState (RowRecord ν)) := do
  assertRowReplicationSchema schema
  return {
    schemaHash := schema.schemaHash
    tables := (InsertionMap.empty.setAll (schema.tables.entries.map fun table => (table.1, InsertionMap.empty))) }

def applyRowOperation (runtime : RowRuntime ν) (schema : ReplicaSchemaContract)
    (state : ReplicaDatabaseState (RowRecord ν)) (input : RowOperation ν) :
    Except RowError (ReplicaDatabaseState (RowRecord ν)) := do
  (assertDatabaseStateSchema schema state).mapError .schemaMismatchError
  match ← normalizeRowOperation runtime schema input.toJson with
  | .putRow table row =>
      let encoded ← encodeRowPrimaryKey runtime schema table row
      let nextTable := ((state.tables.get? table).getD InsertionMap.empty).set encoded row
      return { state with tables := state.tables.set table nextTable }
  | .deleteRow table key =>
      let encoded ← encodePrimaryKey runtime schema table key
      let nextTable := ((state.tables.get? table).getD InsertionMap.empty).erase encoded
      return { state with tables := state.tables.set table nextTable }

def readTableRow (runtime : RowRuntime ν) (schema : ReplicaSchemaContract)
    (state : ReplicaDatabaseState (RowRecord ν)) (tableName : Text) (key : PrimaryKeyRecord ν) :
    Except RowError (Option (RowRecord ν)) :=
  match state.tables.get? tableName with
  | some rows => do return rows.get? (← encodePrimaryKey runtime schema tableName key)
  | none =>
      if tableName ∈ objectPrototypeMembers then do
        let _ ← encodePrimaryKey runtime schema tableName key
        return none
      else return none

/-! ### Codec -/

def createRowOperationCodec (runtime : RowRuntime ν) (schema : ReplicaSchemaContract) :
    Wire.JsonCodec ν RowError (RowOperation ν) where
  encode value := do
    let operation ← (normalizeRowOperation runtime schema value.toJson).mapError .applicationError
    return some operation.toJson
  decode value :=
    match value with
    | some value => (normalizeRowOperation runtime schema value).mapError .applicationError
    | none => .error (.applicationError (.rowOperationError (ascii "row operation must be a plain object")))

/-! ### Interpreters -/

structure RowRejection where
  code : Text
  message : Text

def toRowRejection (runtime : RowRuntime ν) (error : RowError) : RowRejection where
  code := ascii "invalid-row-operation"
  message := error.message runtime

/-- The rejections of an application, which the default rejections are among. -/
structure CreateRowLogInterpreterOptions (ν Rejection : Type) where
  rejectInvalidOperation : Option (RowError → ProposedOperation (RowOperation ν) → Rejection)
  ofRowRejection : RowRejection → Rejection

def createRowLogInterpreter (runtime : RowRuntime ν) (schema : ReplicaSchemaContract)
    (options : CreateRowLogInterpreterOptions ν Rejection) :
    Except RowError
      (LogInterpreter (ReplicaDatabaseState (RowRecord ν)) (RowOperation ν) (RowOperation ν) Rejection RowError) := do
  assertRowReplicationSchema schema
  return {
    decide := fun _ proposal =>
      match normalizeRowOperation runtime schema proposal.intent.toJson with
      | .ok operation => .ok (.accepted operation)
      | .error error =>
          match options.rejectInvalidOperation with
          | some rejectInvalidOperation => .ok (.rejected (rejectInvalidOperation error proposal))
          | none => .ok (.rejected (options.ofRowRejection (toRowRejection runtime error)))
    apply := applyRowOperation runtime schema }

/-- Committed operations are normalized, so that their numbers are finite and `canonicalizeJson` returns
what is printed here. -/
def createRowReplicaInterpreter (runtime : RowRuntime ν) (schema : ReplicaSchemaContract) :
    Except RowError
      (ReplicaInterpreter (ReplicaDatabaseState (RowRecord ν)) (RowOperation ν) (RowOperation ν) RowError) := do
  assertRowReplicationSchema schema
  return {
    applyCommitted := applyRowOperation runtime schema
    applyOptimistic := applyRowOperation runtime schema
    areCommittedOperationsEqual := fun left right =>
      left.toJson.print runtime.toNumberFormat = right.toJson.print runtime.toNumberFormat }

end SyncEngine
