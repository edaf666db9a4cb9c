import SyncEngine.Lib.CanonicalJson
import SyncEngine.Lib.InsertionMap
import SyncEngine.Lib.Throwing

/-!
# The state of a row database

The schema contract of `schema/types.ts` and the row state of `client/row`: for every table, the rows
under the canonical text of their primary keys.
-/

namespace SyncEngine

open JavaScript Throwing

/-- `Record<string, α>`, with its keys in the order they were set. -/
abbrev JsRecord (α : Type) := InsertionMap Text α

inductive SqliteAffinity where
  | integer
  | real
  | text
  | blob
  | numeric
  deriving DecidableEq

structure ReplicaColumnContract where
  affinity : SqliteAffinity
  nullable : Bool
  generated : Bool

/-- The key that no object literal and no assignment makes an own property. -/
def prototypeKey : Text := ascii "__proto__"

structure ReplicaTableContract where
  primaryKey : List Text
  columns : JsRecord ReplicaColumnContract
  ownColumns : prototypeKey ∉ columns.entries.map Prod.fst := by decide

structure ReplicaSchemaContract where
  schemaHash : Text
  tables : JsRecord ReplicaTableContract

/-- `ReplicaDatabaseState`, over the type of rows. -/
structure ReplicaDatabaseState (Row : Type) where
  schemaHash : Text
  tables : JsRecord (JsRecord Row)

structure SyncClientSchemaMismatchError where
  expectedSchemaHash : Text
  receivedSchemaHash : Text

def SyncClientSchemaMismatchError.message (error : SyncClientSchemaMismatchError) : Text :=
  ascii "replica state schema " ++ quote error.receivedSchemaHash ++
    ascii " does not match client schema " ++ quote error.expectedSchemaHash

variable {Row : Type}

def assertDatabaseStateSchema (schema : ReplicaSchemaContract) (state : ReplicaDatabaseState Row) :
    Except SyncClientSchemaMismatchError Unit :=
  throwIf (state.schemaHash ≠ schema.schemaHash) ⟨schema.schemaHash, state.schemaHash⟩

/-- The rows of a table in the order of a comparison of their keys. `insertionSort` is stable, as
`Array.prototype.sort` is. -/
def readTableRows (localeCompare : Text → Text → Int) (state : ReplicaDatabaseState Row)
    (tableName : Text) : List Row :=
  let entries := ((state.tables.get? tableName).getD InsertionMap.empty).entries
  (entries.insertionSort fun left right => localeCompare left.1 right.1 ≤ 0).map Prod.snd

end SyncEngine
