import SyncEngine.Lib.Decimal
import SyncEngine.Model.RowOperations

/-!
# Schema discovery

`discoverD1Schema` of `schema/discovery`: the contracts of the tables of a database, read from the metadata
that SQLite keeps of them. The database answers a query by its text, with rows in any order.
-/

namespace SyncEngine

open JavaScript Throwing

/-! ### Metadata -/

inductive MetadataValue where
  | string (value : Text)
  | integer (value : Int)
  | boolean (value : Bool)
  /-- A fraction, `null`, `undefined` or any other value. -/
  | other

structure MetadataRow where
  name : MetadataValue := .other
  cid : MetadataValue := .other
  type : MetadataValue := .other
  notnull : MetadataValue := .other
  pk : MetadataValue := .other
  hidden : MetadataValue := .other

inductive D1AllResult where
  | thrown
  /-- `success` is `false`. -/
  | failed (error : Option Text)
  /-- `results` is no array. -/
  | withoutResults
  | results (rows : List MetadataRow)

abbrev D1QueryExecutor := Text → D1AllResult

inductive DiscoveryError where
  | schemaDiscoveryError (message : Text)
  | schemaTableWithoutPrimaryKeyError (tableName : Text)

def DiscoveryError.message : DiscoveryError → Text
  | .schemaDiscoveryError message => message
  | .schemaTableWithoutPrimaryKeyError tableName => ascii "table " ++ quote tableName ++
      ascii " has no declared primary key; replicated rows require stable application-owned identity"

/-- The runtime of a discovery: `toUpperCase` of a string, and SHA-256 of the UTF-8 bytes of a text, where
there is Web Crypto. -/
structure DiscoveryRuntime where
  toUpperCase : Text → Text
  sha256 : Option (Text → Vector UInt8 32)

def allRows (executor : D1QueryExecutor) (sql : Text) : Except DiscoveryError (List MetadataRow) :=
  match executor sql with
  | .thrown => .error (.schemaDiscoveryError (ascii "D1 schema query failed: " ++ sql))
  | .failed error => .error (.schemaDiscoveryError (ascii "D1 schema query failed" ++
      (error.map fun error => ascii ": " ++ error).getD []))
  | .withoutResults => .error (.schemaDiscoveryError (ascii "D1 schema query returned no result rows"))
  | .results rows => .ok rows

/-! ### Scalars -/

def MetadataValue.readName : MetadataValue → Option Text
  | .string value => if trim value = [] then none else some (trim value)
  | _ => none

def MetadataValue.readText : MetadataValue → Text
  | .string value => value
  | _ => []

def MetadataValue.readBoolean : MetadataValue → Bool
  | .boolean value => value
  | .integer value => value = 1
  | .string value => value = ascii "1"
  | .other => false

/-- `/^-?\d+$/.test(text)` -/
def isIntegerText (text : Text) : Bool :=
  let digits := if text.head? = some 45 then text.tail else text
  !digits.isEmpty && digits.all isDigit

/-- An integer text beyond the safe integers is beyond them as a number, too. -/
def MetadataValue.readInteger (value : MetadataValue) (fallback : Int) : Int :=
  match value with
  | .integer value => if IsSafeInteger value then value else fallback
  | .string text => if isIntegerText text ∧ IsSafeInteger (integerValue text) then integerValue text else fallback
  | _ => fallback

/-- The names are collected in a set. -/
def normalizeNameSet (names : Option (List Text)) : Except DiscoveryError (Option (List Text)) :=
  match names with
  | none => .ok none
  | some names => do
      let names ← names.mapM fun rawName => do
        throwIf (trim rawName = []) (.schemaDiscoveryError (ascii "table names must not be empty"))
        return trim rawName
      return some names.eraseDups

def quoteIdentifier (identifier : Text) : Text :=
  34 :: identifier.flatMap (fun unit => if unit = 34 then [34, 34] else [unit]) ++ [34]

def sqliteAffinity (toUpperCase : Text → Text) (declaredType : Text) : SqliteAffinity :=
  let normalized := toUpperCase (trim declaredType)
  let includes := fun (word : String) => decide (ascii word <:+: normalized)
  if includes "INT" then .integer
  else if includes "CHAR" || includes "CLOB" || includes "TEXT" then .text
  else if normalized = [] || includes "BLOB" then .blob
  else if includes "REAL" || includes "FLOA" || includes "DOUB" then .real
  else .numeric

/-! ### Tables -/

def tableListSql : Text := ascii
  "SELECT name, type\nFROM pragma_table_list\nWHERE schema = 'main'\n  AND type = 'table'\nORDER BY name"

def sqliteSchemaFallbackSql : Text := ascii
  "SELECT name, type\nFROM sqlite_schema\nWHERE type = 'table'\nORDER BY name"

def tableInfoSql (tableName : Text) : Text :=
  ascii "PRAGMA table_xinfo(" ++ quoteIdentifier tableName ++ ascii ")"

def D1QueryExecutor.readTableRows (executor : D1QueryExecutor) : Except DiscoveryError (List MetadataRow) :=
  match allRows executor tableListSql with
  | .ok rows => .ok rows
  | .error _ =>
      match allRows executor sqliteSchemaFallbackSql with
      | .ok rows => .ok rows
      | .error _ => .error (.schemaDiscoveryError
          (ascii "failed to discover D1 tables through SQLite metadata"))

/-- A record that assignments have made, which never set the prototype's key. -/
abbrev AssignedRecord (α : Type) := { record : JsRecord α // prototypeKey ∉ record.entries.map Prod.fst }

def AssignedRecord.empty {α : Type} : AssignedRecord α := ⟨InsertionMap.empty, List.not_mem_nil⟩

def AssignedRecord.assign {α : Type} (record : AssignedRecord α) (name : Text) (value : α) : AssignedRecord α :=
  if h : name = prototypeKey then record
  else ⟨record.1.set name value, fun hmem =>
    ((InsertionMap.mem_keys_setEntries name value record.1.entries prototypeKey).mp hmem).elim
      (fun hsame => h hsame.symm) record.2⟩

structure PrimaryKeyPart where
  name : Text
  order : Int

structure TableColumns where
  columns : AssignedRecord ReplicaColumnContract
  primaryKeyParts : List PrimaryKeyPart

def readColumn (runtime : DiscoveryRuntime) (tableName : Text) (table : TableColumns) (row : MetadataRow) :
    Except DiscoveryError TableColumns :=
  match MetadataValue.readName row.name with
  | none => .error (.schemaDiscoveryError (ascii "table " ++ quote tableName ++
      ascii " contains a column without a valid name"))
  | some name =>
      let hidden := MetadataValue.readInteger row.hidden 0
      let primaryKeyOrder := MetadataValue.readInteger row.pk 0
      if hidden = 1 then .ok table
      else .ok {
        columns := table.columns.assign name {
          affinity := sqliteAffinity runtime.toUpperCase (MetadataValue.readText row.type)
          nullable := !MetadataValue.readBoolean row.notnull && primaryKeyOrder = 0
          generated := hidden = 2 || hidden = 3 }
        primaryKeyParts :=
          if primaryKeyOrder > 0 then table.primaryKeyParts ++ [⟨name, primaryKeyOrder⟩] else table.primaryKeyParts }

def MetadataRow.columnId (row : MetadataRow) : Int := MetadataValue.readInteger row.cid (-1)

def readTable (runtime : DiscoveryRuntime) (executor : D1QueryExecutor) (tableName : Text) :
    Except DiscoveryError ReplicaTableContract := do
  let rows ← allRows executor (tableInfoSql tableName)
  let orderedRows := rows.insertionSort fun left right => left.columnId ≤ right.columnId
  let table ← orderedRows.foldlM (readColumn runtime tableName) ⟨.empty, []⟩
  throwIf (table.columns.1.entries.length = 0)
    (.schemaDiscoveryError (ascii "table " ++ quote tableName ++ ascii " has no discoverable columns"))
  let primaryKeyParts := table.primaryKeyParts.insertionSort fun left right => left.order ≤ right.order
  throwIf (primaryKeyParts.length = 0) (.schemaTableWithoutPrimaryKeyError tableName)
  return { primaryKey := primaryKeyParts.map PrimaryKeyPart.name, columns := table.columns.1,
           ownColumns := table.columns.2 }

/-! ### The fingerprint -/

/-- A key that is an array index, as its number. -/
def arrayIndex (key : Text) : Option Nat :=
  let index := naturalValue key
  if naturalLiteral index = key ∧ index < 4294967295 then some index else none

/-- The fields of an object in the order of its keys: array indices, ascending, and the others as they were
set. -/
def enumerate {α : Type} (fields : List (Text × α)) : List (Text × α) :=
  (fields.filter fun field => (arrayIndex field.1).isSome).insertionSort (fun left right =>
    naturalValue left.1 ≤ naturalValue right.1) ++ fields.filter fun field => (arrayIndex field.1).isNone

def ReplicaColumnContract.toJson (column : ReplicaColumnContract) : JsonValue Int :=
  .object [
    (ascii "affinity", .string (ascii column.affinity.name)),
    (ascii "nullable", .boolean column.nullable),
    (ascii "generated", .boolean column.generated)]

def ReplicaTableContract.toJson (table : ReplicaTableContract) : JsonValue Int :=
  .object [
    (ascii "primaryKey", .array (table.primaryKey.map .string)),
    (ascii "columns", .object ((enumerate table.columns.entries).map (Prod.map id ReplicaColumnContract.toJson)))]

def schemaPayload (tables : JsRecord ReplicaTableContract) : JsonValue Int :=
  .object [
    (ascii "formatVersion", .number 1),
    (ascii "tables", .object ((enumerate tables.entries).map (Prod.map id ReplicaTableContract.toJson)))]

def hashNormalizedSchema (runtime : DiscoveryRuntime) (value : JsonValue Int) : Except DiscoveryError Text :=
  match runtime.sha256 with
  | none => .error (.schemaDiscoveryError (ascii "Web Crypto is required to fingerprint the discovered schema"))
  | some sha256 =>
      let hex := (sha256 (value.stringify integerFormat)).toList.flatMap hexByte
      .ok (ascii "sha256:" ++ hex.map fun digit => Fin.ofNat 65536 digit.toNat)

/-! ### Discovery -/

structure DiscoverD1SchemaOptions where
  includeTables : Option (List Text) := none
  excludeTables : Option (List Text) := none

def alwaysExcludedTables : List Text :=
  ["_cf_KV", "_cf_METADATA", "d1_migrations", "sqlite_sequence"].map ascii

def shouldIncludeTable (name : Text) (includeTables excludeTables : Option (List Text)) : Bool :=
  if (ascii "sqlite_").isPrefixOf name || (ascii "__sync_engine_").isPrefixOf name then false
  else if alwaysExcludedTables.contains name || excludeTables.any (·.contains name) then false
  else includeTables.all (·.contains name)

def missingTables (availableNames : List Text) (includeTables : Option (List Text)) : List Text :=
  (includeTables.getD []).filter fun name => !availableNames.contains name

def discoverD1Schema (runtime : DiscoveryRuntime) (executor : D1QueryExecutor) (options : DiscoverD1SchemaOptions) :
    Except DiscoveryError ReplicaSchemaContract := do
  let tableRows ← D1QueryExecutor.readTableRows executor
  let includeTables ← normalizeNameSet options.includeTables
  let excludeTables ← normalizeNameSet options.excludeTables
  let availableNames := (tableRows.filterMap fun row => MetadataValue.readName row.name).eraseDups
  let missing := missingTables availableNames includeTables
  throwIf (missing.length > 0) (.schemaDiscoveryError (ascii "requested tables do not exist: " ++
    (ascii ", ").intercalate (missing.insertionSort (· ≤ ·))))
  let selectedNames := (availableNames.filter fun name =>
    shouldIncludeTable name includeTables excludeTables).insertionSort (· ≤ ·)
  let tables ← selectedNames.foldlM (fun (tables : AssignedRecord ReplicaTableContract) tableName => do
    return tables.assign tableName (← readTable runtime executor tableName)) .empty
  return { schemaHash := ← hashNormalizedSchema runtime (schemaPayload tables.1), tables := tables.1 }

end SyncEngine
