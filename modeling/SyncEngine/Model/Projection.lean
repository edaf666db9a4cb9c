import Mathlib.Logic.Function.Basic
import SyncEngine.Lib.SqlTable
import SyncEngine.Model.RowOperations

/-!
# Application tables

`projectRowOperationToApplicationTable` of `next/d1.ts`: the statement that repeats an accepted row
operation in the application table it names. SQLite converts what it stores and what it compares to the
affinity of the column; the numbers of the database and the texts that are well-formed numbers are a
parameter.
-/

namespace SyncEngine

open JavaScript Throwing

variable {ν δ : Type}

/-! ### Values -/

inductive D1Value (ν : Type) where
  | null
  | number (value : ν)
  | string (value : Text)
  | arrayBuffer (bytes : List ν)

inductive SqlValue (δ : Type) where
  | number (value : δ)
  | text (value : Text)
  | blob (bytes : List δ)
  deriving DecidableEq

structure SqliteNumbers (ν δ : Type) where
  ofNumber : ν → δ
  /-- The number that a text is, when it is a well-formed one. -/
  ofText : Text → Option δ
  toText : δ → Text

def SqliteAffinity.convert (numbers : SqliteNumbers ν δ) (affinity : SqliteAffinity) :
    D1Value ν → Option (SqlValue δ)
  | .null => none
  | .number value =>
      match affinity with
      | .text => some (.text (numbers.toText (numbers.ofNumber value)))
      | .integer | .real | .numeric | .blob => some (.number (numbers.ofNumber value))
  | .string value =>
      match affinity, numbers.ofText value with
      | .integer, some number
      | .real, some number
      | .numeric, some number => some (.number number)
      | _, _ => some (.text value)
  | .arrayBuffer bytes => some (.blob (bytes.map numbers.ofNumber))

/-! ### The projection -/

/-- What the projection throws: a `D1SyncStorageError`, or a `TypeError` for a table that is an inherited
member. -/
inductive ProjectionError where
  | d1SyncStorageError (message : Text)
  | typeError

inductive ApplicationStatement (ν : Type) where
  | delete (table : Text) (condition : List (Text × D1Value ν))
  /-- `INSERT INTO … VALUES … ON CONFLICT (…) DO UPDATE SET c = excluded.c, …`, and `DO NOTHING` without a
  column to update. -/
  | insert (table : Text) (values : List (Text × D1Value ν)) (conflictTarget updateColumns : List Text)

def quoteSqlIdentifier (identifier : Text) : Text :=
  ascii "\"" ++ identifier.flatMap (fun unit => if unit = 34 then [34, 34] else [unit]) ++ ascii "\""

/-- The text of a statement, without the line breaks of the source. -/
def ApplicationStatement.sql : ApplicationStatement ν → Text
  | .delete table condition =>
      ascii "DELETE FROM " ++ quoteSqlIdentifier table ++ ascii " WHERE " ++
        (ascii " AND ").intercalate (condition.map fun column => quoteSqlIdentifier column.1 ++ ascii " = ?")
  | .insert table values conflictTarget updateColumns =>
      let conflictAction : Text :=
        if updateColumns.length = 0 then ascii "DO NOTHING"
        else ascii "DO UPDATE SET " ++ (ascii ", ").intercalate (updateColumns.map fun column =>
          quoteSqlIdentifier column ++ ascii " = excluded." ++ quoteSqlIdentifier column)
      ascii "INSERT INTO " ++ quoteSqlIdentifier table ++ ascii " (" ++
        (ascii ", ").intercalate (values.map fun column => quoteSqlIdentifier column.1) ++ ascii ") VALUES (" ++
        (ascii ", ").intercalate (values.map fun _ => ascii "?") ++ ascii ") ON CONFLICT (" ++
        (ascii ", ").intercalate (conflictTarget.map quoteSqlIdentifier) ++ ascii ") " ++ conflictAction

def numbersOf (items : List (JsonValue ν)) : List ν :=
  items.filterMap fun
    | .number value => some value
    | _ => none

section Project

variable (runtime : RowRuntime ν)

def bindColumnValue (column : Option ReplicaColumnContract) (value : Option (JsonValue ν)) (label : Text) :
    Except ProjectionError (D1Value ν) :=
  match column, value with
  | none, _ => .error (.d1SyncStorageError (ascii "cannot project unknown column " ++ label))
  | some _, none => .error (.d1SyncStorageError (ascii "cannot project missing column " ++ label))
  | some _, some .null => .ok .null
  | some column, some value =>
      if column.affinity = .blob then
        match value with
        | .array items => do
            throwIf (¬items.all (isByteValue runtime))
              (.d1SyncStorageError (ascii "cannot project non-byte-array blob " ++ label))
            return .arrayBuffer (numbersOf items)
        | _ => .error (.d1SyncStorageError (ascii "cannot project non-byte-array blob " ++ label))
      else
        match value with
        | .string value => .ok (.string value)
        | .number value => .ok (.number value)
        | _ => .error (.d1SyncStorageError (ascii "cannot project " ++ label ++
            ascii "; D1 bindings accept strings, numbers, blobs, or null"))

def projectedTable (schema : ReplicaSchemaContract) (tableName : Text) :
    Except ProjectionError ReplicaTableContract :=
  match schema.tables.get? tableName with
  | some table => .ok table
  | none =>
      if tableName ∈ objectPrototypeMembers then .error .typeError
      else .error (.d1SyncStorageError (ascii "cannot project operation for unknown table " ++ quote tableName))

def bindColumns (tableName : Text) (table : ReplicaTableContract) (record : JsRecord (JsonValue ν))
    (columns : List Text) : Except ProjectionError (List (Text × D1Value ν)) :=
  columns.mapM fun columnName => do
    return (columnName, ← bindColumnValue runtime (table.columns.get? columnName) (record.get? columnName)
      (tableName ++ ascii "." ++ columnName))

def projectRowOperationToApplicationTable (schema : ReplicaSchemaContract) :
    RowOperation ν → Except ProjectionError (List (ApplicationStatement ν))
  | .deleteRow tableName key => do
      let table ← projectedTable schema tableName
      let condition ← bindColumns runtime tableName table key table.primaryKey
      return [.delete tableName condition]
  | .putRow tableName row => do
      let table ← projectedTable schema tableName
      let columns := table.columns.entries.map Prod.fst
      let values ← bindColumns runtime tableName table row columns
      let updateColumns := columns.filter fun columnName => columnName ∉ table.primaryKey
      return [.insert tableName values table.primaryKey updateColumns]

end Project

/-! ### The database -/

/-- The application tables: the columns and keys of each are those of the schema. -/
abbrev ApplicationTables (δ : Type) := Text → List (Sql.Row Text (SqlValue δ))

section Execute

variable (numbers : SqliteNumbers ν δ) (schema : ReplicaSchemaContract)

def ReplicaTableContract.convertRow (table : ReplicaTableContract) (values : List (Text × D1Value ν)) :
    Sql.Row Text (SqlValue δ) := fun columnName =>
  match table.columns.get? columnName, values.find? fun value => value.1 = columnName with
  | some column, some value => column.affinity.convert numbers value.2
  | _, _ => none

variable [DecidableEq δ]

def ApplicationStatement.execute (tables : ApplicationTables δ) :
    ApplicationStatement ν → Except ProjectionError (ApplicationTables δ)
  | .delete tableName condition => do
      let table ← projectedTable schema tableName
      return Function.update tables tableName
        (Sql.deleteWhere (condition.map Prod.fst) (table.convertRow numbers condition) (tables tableName))
  | .insert tableName values conflictTarget updateColumns => do
      let table ← projectedTable schema tableName
      return Function.update tables tableName
        (Sql.upsert conflictTarget updateColumns (table.convertRow numbers values) (tables tableName))

def projectRowOperation (runtime : RowRuntime ν) (tables : ApplicationTables δ) (operation : RowOperation ν) :
    Except ProjectionError (ApplicationTables δ) := do
  let statements ← projectRowOperationToApplicationTable runtime schema operation
  statements.foldlM (ApplicationStatement.execute numbers schema) tables

end Execute

end SyncEngine
